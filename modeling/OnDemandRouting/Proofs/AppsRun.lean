import OnDemandRouting.Lib.Related
import OnDemandRouting.Proofs.Apps

/-!
# Clients, servers and daemons together

The system of applications and daemons is a post office: every step of it is a step of
`Lib.Post` or nothing.  What the clients can rely on is what the ledger of the post says.
A client that waits has exactly one message somewhere, plus one for every time its alarm
went off.  As long as the alarm has never gone off, the reply it prints is the reply of the
server it asked.
-/

namespace OnDemandRouting.Proofs

open OnDemandRouting.Lib
open OnDemandRouting.Model

variable {Node Client : Type} [DecidableEq Node] {T : Topology Node} {site : Site Node Client}
  {A : Finset Client}

/-! ## What the daemons find

A handler whose datagrams all find their sockets does what it does when everyone listens. -/

section Sockets

variable {s : AppNet Node Client} {n : Node} {env : Env}

theorem bound_letter [Fintype Client] {l : Letter Client Node String}
    (hc : s.clients l.client ≠ .exited) :
    site.bound s (l.dest site.home) (letterPath site l) = true := by
  cases l with
  | ask c v => exact bound_server s v
  | answer c v msg => exact bound_client hc

theorem withSockets_eq [Fintype Client] {call : Env → Outcome}
    (h : (call (heard env)).events.all (site.reach s n) = true) :
    site.withSockets s n call env = heard env := by
  rw [heard] at h
  rw [Site.withSockets, h, heard]

theorem alive_takeRequest {net : Net Node} {sparams : SendParams}
    (halive : ∀ m, net.alive m = true)
    (hexit : (handlePeerMsg (T.cfg n) env sparams (net.nodes n)).exit = .returned 1) (m : Node) :
    (T.takeRequest net n sparams env).alive m = true := by
  by_cases hm : m = n
  · subst hm
    simp [Topology.takeRequest, hexit, Exit.survives]
  · simp [Topology.takeRequest, hm, halive m]

theorem alive_deliverPacket {net : Net Node} {p : Packet Node} (rest : List (Packet Node))
    (halive : ∀ m, net.alive m = true)
    (hsurvives : (handleEthernetMsg (T.cfg p.dst) env p.ifIndex p.srcMac p.frame
      (net.nodes p.dst)).exit.survives = true) (m : Node) :
    (T.deliverPacket net p rest env).alive m = true := by
  by_cases hm : m = p.dst
  · subst hm
    simp [Topology.deliverPacket, hsurvives]
  · simp [Topology.deliverPacket, hm, halive m]

end Sockets

variable [Fintype Node]

/-! ## The two levels -/

/-- What a client has read is the answer `msg` of the server at `w`. -/
def answerParams (T : Topology Node) (w : Node) (msg : String) : MsgParams where
  msg := msg
  cliIp := T.ip w
  port := servPort

/-- The client in its loop and the client of the post office. -/
inductive ClientAgrees (T : Topology Node) (site : Site Node Client) :
    ClientState → Status Node String → Prop
  | idle : ClientAgrees T site .prompt .idle
  | waiting {servVm : String} {v : Node} {armed : Bool}
      (hvm : site.canonicalIp servVm = some (T.ip v)) :
      ClientAgrees T site (.waiting servVm (T.ip v) armed) (.waiting v armed)
  | replied {servVm msg : String} {v w : Node} {armed : Bool}
      (hvm : site.canonicalIp servVm = some (T.ip v)) :
      ClientAgrees T site (.replied servVm (T.ip v) armed (answerParams T w msg))
        (.replied v armed w msg)
  | gone : ClientAgrees T site .exited .gone

/-- A line that a client printed and what the post office has told it. -/
def PrintedAgrees (T : Topology Node) (site : Site Node Client) :
    Client × Node × Node × String → Client × String × MsgParams → Prop
  | (c, v, w, msg), (c', servVm, mparams) =>
      c' = c ∧ site.canonicalIp servVm = some (T.ip v) ∧ mparams = answerParams T w msg

/-- The network with its applications and the post office agree; the clients of `A` ask. -/
structure Agrees (T : Topology Node) (site : Site Node Client) (A : Finset Client)
    (s : AppNet Node Client) (t : Post Client Node String) : Prop where
  run : ∃ h, Trace T.step (Net.initial Node) h s.net ∧ ∀ x ∈ h, x.2.env.Succeeds
  alive : ∀ n, s.net.alive n = true
  kept : s.net.discarded = []
  paths : PathsFor site A s.net
  proc : ∀ n, List.Forall₂ (RequestText T site A s.net n) (t.out n) (s.procSock n)
  serv : ∀ n, List.Forall₂ (QuestionText T site s.net) (t.desk n) (s.servSock n)
  cli : ∀ c, List.Forall₂ (AnswerText T) (t.box c) (s.cliSock c)
  mail : Multiset.Rel (LetterMsg T site s.net) t.mail (onTheWay s.net)
  clients : ∀ c, ClientAgrees T site (s.clients c) (t.status c)
  printed : List.Forall₂ (PrintedAgrees T site) t.told s.printed
  alarms : t.retried = s.alarms
  gone : ∀ c, t.status c = .gone → t.retried c = 0

theorem agrees_initial : Agrees T site A (AppNet.initial Node Client) Post.initial where
  run := ⟨[], .nil, by simp⟩
  alive _ := rfl
  kept := rfl
  paths := pathsFor_initial
  proc _ := .nil
  serv _ := .nil
  cli _ := .nil
  mail := by
    have hnone : onTheWay (Net.initial Node) = 0 := by
      simp [onTheWay, Net.initial, NodeState.initial, flightMsgs, queuedMsgs]
    exact hnone ▸ Multiset.Rel.zero
  clients _ := .idle
  printed := .nil
  alarms := rfl
  gone _ h := nomatch h

section Parts

variable {s : AppNet Node Client} {t : Post Client Node String} {c : Client} {n : Node}
  {l : Letter Client Node String}

theorem Agrees.setOut (h : Agrees T site A s t) {texts : List String}
    {ls : List (Letter Client Node String)}
    (hls : List.Forall₂ (RequestText T site A s.net n) ls texts) :
    Agrees T site A { s with procSock := Function.update s.procSock n texts } (t.setOut n ls) :=
  { h with
    proc := forall_update_update (fun n => List.Forall₂ (RequestText T site A s.net n)) h.proc hls }

theorem Agrees.setDesk (h : Agrees T site A s t) {texts : List String} {cs : List Client}
    (hcs : List.Forall₂ (QuestionText T site s.net) cs texts) :
    Agrees T site A { s with servSock := Function.update s.servSock n texts } (t.setDesk n cs) :=
  { h with
    serv := forall_update_update (fun _ => List.Forall₂ (QuestionText T site s.net)) h.serv hcs }

/-- An application hands in a letter. -/
theorem Agrees.write (h : Agrees T site A s t) {text : String}
    (htext : RequestText T site A s.net n l text) :
    Agrees T site A (s.sendToProc n text) (t.write n l) := by
  rw [AppNet.sendToProc, if_pos (h.alive n)]
  apply h.setOut
  exact List.rel_append (h.proc n) (.cons htext .nil)

/-- The network takes a step. -/
theorem Agrees.network (h : Agrees T site A s t) {a : Action Node} {net : Net Node}
    {mail : Multiset (Letter Client Node String)} (hs : T.step s.net a = some net)
    (henv : a.env.Succeeds) (halive : ∀ n, net.alive n = true) (hkept : net.discarded = [])
    (hpaths : PathsFor site A net)
    (hmail : Multiset.Rel (LetterMsg T site net) mail (onTheWay net)) :
    Agrees T site A { s with net := net } { t with mail := mail } := by
  obtain ⟨h₀, ht, henv₀⟩ := h.run
  refine { h with
    run := ⟨_, .snoc ht hs, List.forall_mem_cons.mpr ⟨henv, henv₀⟩⟩
    alive := halive
    kept := hkept
    paths := hpaths
    proc := fun n => ?_
    serv := fun n => ?_
    mail := hmail }
  · exact (h.proc n).imp fun _ _ htext => htext.step hs
  · exact (h.serv n).imp fun _ _ htext => htext.step hs

variable [DecidableEq Client]

theorem Agrees.setClient (h : Agrees T site A s t) {st : ClientState} {st' : Status Node String}
    (hst : ClientAgrees T site st st') (hgone : st' = .gone → t.retried c = 0) :
    Agrees T site A (s.setClient c st) (t.setStatus c st') := by
  have hclients := forall_update_update (fun _ => fun a b => ClientAgrees T site b a) h.clients
    (i := c) hst
  refine { h with clients := hclients, gone := fun c' hc' => ?_ }
  by_cases hc : c' = c
  · subst hc
    exact hgone (by simpa [Post.setStatus] using hc')
  · exact h.gone c' (by simpa [Post.setStatus, hc] using hc')

theorem Agrees.setBox (h : Agrees T site A s t) {texts : List String} {xs : List (Node × String)}
    (hxs : List.Forall₂ (AnswerText T) xs texts) :
    Agrees T site A { s with cliSock := Function.update s.cliSock c texts } (t.setBox c xs) :=
  { h with cli := forall_update_update (fun _ => List.Forall₂ (AnswerText T)) h.cli hxs }

/-- A letter arrives. -/
theorem Agrees.arrive (h : Agrees T site A s t) (hsite : SiteOk T site) {m : AppMsg}
    (hm : LetterMsg T site s.net l m) :
    Agrees T site A (site.hand (l.dest site.home) s (.sentTo (letterPath site l) m))
      (t.arrive l) := by
  cases l with
  | ask c v =>
      obtain ⟨port, hport, rfl⟩ := hm
      rw [letterPath, hand_server hsite]
      apply h.setDesk
      exact List.rel_append (h.serv v) (.cons ⟨port, hport, rfl⟩ .nil)
  | answer c v msg =>
      obtain ⟨hmsg, port, hport, rfl⟩ := hm
      rw [letterPath, Letter.dest, hand_client hsite]
      apply h.setBox
      exact List.rel_append (h.cli c) (.cons ⟨hmsg, rfl⟩ .nil)

end Parts

/-! ## Steps of the applications

Each step of the post office that an application takes, and the step it stands for. -/

section Applications

variable {s : AppNet Node Client} {t : Post Client Node String} {c : Client} {n : Node}
  {servVm : String} {canonIp : Ip} {armed : Bool} {mparams : MsgParams} {v w : Node}

theorem Agrees.client_of_idle (h : Agrees T site A s t) (hst : t.status c = .idle) :
    s.clients c = .prompt := by
  have hagree := h.clients c
  rw [hst] at hagree
  generalize s.clients c = st at hagree
  cases hagree
  rfl

theorem Agrees.client_of_waiting (h : Agrees T site A s t) (hst : t.status c = .waiting v armed) :
    ∃ servVm, s.clients c = .waiting servVm (T.ip v) armed ∧
      site.canonicalIp servVm = some (T.ip v) := by
  have hagree := h.clients c
  rw [hst] at hagree
  generalize s.clients c = st at hagree
  cases hagree with
  | waiting hvm => exact ⟨_, rfl, hvm⟩

theorem Agrees.client_of_replied (h : Agrees T site A s t) {msg : String}
    (hst : t.status c = .replied v armed w msg) :
    ∃ servVm, s.clients c = .replied servVm (T.ip v) armed (answerParams T w msg) ∧
      site.canonicalIp servVm = some (T.ip v) := by
  have hagree := h.clients c
  rw [hst] at hagree
  generalize s.clients c = st at hagree
  cases hagree with
  | replied hvm => exact ⟨_, rfl, hvm⟩

variable [DecidableEq Client]

theorem agrees_resend (h : Agrees T site A s t) (hc : c ∈ A)
    (hvm : site.canonicalIp servVm = some (T.ip v)) :
    Agrees T site A (site.resend s c servVm (T.ip v))
      ((t.setStatus c (.waiting v false)).write (site.home c) (.ask c v)) := by
  apply (h.setClient (.waiting hvm) fun hgone => nomatch hgone).write
  exact ⟨hc, rfl, 1, rfl⟩

variable [Fintype Client]

/-- The action leads to a state that agrees with `t'`. -/
def Leads (T : Topology Node) (site : Site Node Client) (A : Finset Client)
    (s : AppNet Node Client) (a : AppAction Node Client) (t' : Post Client Node String) : Prop :=
  ∃ s', site.step T s a = some s' ∧ Agrees T site A s' t'

theorem leads_ask (h : Agrees T site A s t) (hc : c ∈ A) (hst : t.status c = .idle)
    (hexit : servVm ≠ "exit") (hvm : site.canonicalIp servVm = some (T.ip v)) :
    Leads T site A s (.enter c servVm)
      ((t.setStatus c (.waiting v true)).write (site.home c) (.ask c v)) := by
  refine ⟨site.enter s c servVm, by simp [Site.step, h.client_of_idle hst], ?_⟩
  rw [Site.enter, if_neg hexit, hvm]
  apply (h.setClient (.waiting hvm) fun hgone => nomatch hgone).write
  exact ⟨hc, rfl, 0, rfl⟩

theorem leads_leave (h : Agrees T site A s t) (hst : t.status c = .idle)
    (hquiet : t.retried c = 0) : Leads T site A s (.enter c "exit") (t.setStatus c .gone) :=
  ⟨s.setClient c .exited, by simp [Site.step, h.client_of_idle hst, Site.enter],
    h.setClient .gone fun _ => hquiet⟩

theorem leads_retry (h : Agrees T site A s t) (hA : c ∈ A) (hst : t.status c = .waiting v true) :
    Leads T site A s (.sigalrm c)
      (({ t with retried := Function.update t.retried c (t.retried c + 1) }.setStatus c
        (.waiting v false)).write (site.home c) (.ask c v)) := by
  obtain ⟨servVm, hc, hvm⟩ := h.client_of_waiting hst
  refine ⟨_, by rw [Site.step, hc], agrees_resend ?_ hA hvm⟩
  have halarms : Function.update t.retried c (t.retried c + 1) =
      Function.update s.alarms c (s.alarms c + 1) := by rw [h.alarms]
  refine { h with alarms := halarms, gone := fun c' hc' => ?_ }
  have hne : c' ≠ c := by
    rintro rfl
    rw [show t.status c' = .gone from hc'] at hst
    cases hst
  simpa [hne] using h.gone c' hc'

theorem leads_overlook (h : Agrees T site A s t) (hA : c ∈ A) {msg : String}
    (hst : t.status c = .replied v true w msg) :
    Leads T site A s (.sigalrm c)
      ((t.setStatus c (.waiting v false)).write (site.home c) (.ask c v)) := by
  obtain ⟨servVm, hc, hvm⟩ := h.client_of_replied hst
  exact ⟨_, by rw [Site.step, hc], agrees_resend h hA hvm⟩

theorem leads_read (h : Agrees T site A s t) (hsite : SiteOk T site) {msg : String}
    {xs : List (Node × String)} (hst : t.status c = .waiting v armed)
    (hbox : t.box c = (w, msg) :: xs) :
    Leads T site A s (.recv c) ((t.setBox c xs).setStatus c (.replied v armed w msg)) := by
  obtain ⟨servVm, hc, hvm⟩ := h.client_of_waiting hst
  have hcli := h.cli c
  rw [hbox] at hcli
  obtain ⟨buff, rest, ⟨hmsg, hbuff⟩, hxs, hsock⟩ := List.forall₂_cons_left_iff.mp hcli
  refine ⟨_, ?_, (h.setBox hxs).setClient (.replied hvm) fun hgone => nomatch hgone⟩
  simp only [Site.step, hc, hsock, hbuff]
  rw [msgRecv_peerSequence (hsite.address w).isField hmsg]
  rfl

theorem leads_finish (h : Agrees T site A s t) {msg : String}
    (hst : t.status c = .replied v armed w msg) :
    Leads T site A s (.print c)
      ({ t with told := t.told ++ [(c, v, w, msg)] }.setStatus c .idle) := by
  obtain ⟨servVm, hc, hvm⟩ := h.client_of_replied hst
  refine ⟨_, by rw [Site.step, hc], Agrees.setClient ?_ .idle fun hgone => nomatch hgone⟩
  have hprinted : List.Forall₂ (PrintedAgrees T site) (t.told ++ [(c, v, w, msg)])
      (s.printed ++ [(c, servVm, answerParams T w msg)]) :=
    List.rel_append h.printed (.cons ⟨rfl, hvm, rfl⟩ .nil)
  exact { h with printed := hprinted }

theorem leads_serve (h : Agrees T site A s t) (hsite : SiteOk T site) {cs : List Client}
    (hdesk : t.desk n = c :: cs) (ticks : Tm) :
    Leads T site A s (.serve n ticks)
      ((t.setDesk n cs).write n (.answer c n (timeMsg ticks))) := by
  have hserv := h.serv n
  rw [hdesk] at hserv
  obtain ⟨buff, rest, ⟨port, hport, hbuff⟩, hcs, hsock⟩ := List.forall₂_cons_left_iff.mp hserv
  refine ⟨_, ?_, (h.setDesk hcs).write ⟨rfl, isField_timeMsg ticks, port, hport, rfl⟩⟩
  simp only [Site.step, hsock, hbuff]
  rw [msgRecv_peerSequence (hsite.address _).isField isField_helloMsg]
  rfl

end Applications

/-! ## Steps of the daemons -/

section Daemons

variable {s s' : AppNet Node Client} {t : Post Client Node String} {c : Client} {n : Node}
  {l : Letter Client Node String} {env : Env}

/-- The messages on their way are still those of the mail. -/
theorem Agrees.mail_step (h : Agrees T site A s t) {a : Action Node} {net : Net Node}
    (hs : T.step s.net a = some net) :
    Multiset.Rel (LetterMsg T site net) t.mail (onTheWay s.net) :=
  h.mail.mono fun _ _ _ _ hm => hm.step hs

/-- The daemon scans a request and registers its path.  The message of the request is then that
of the letter, and one for this node finds the path of the letter. -/
theorem Agrees.scanned {text : String} (h : Agrees T site A s t) (hsite : SiteOk T site)
    (hfew : FewClients site A) (env : Env) (htext : RequestText T site A s.net n l text) :
    ∃ sparams e ports next, getSendParams text = some sparams ∧
      sparams.destip = T.ip (l.dest site.home) ∧
      fetchEntryPath sparams.filename (s.net.nodes n).ports (s.net.nodes n).nextPortno =
        some (e, ports, next) ∧
      PathsFor site A (T.takeRequest s.net n sparams env) ∧
      LetterMsg T site (T.takeRequest s.net n sparams env) l
        (sparams.message (T.ip n) e.portno) ∧
      (l.dest site.home = n → fetchEntryPort sparams.destport ports =
        some { portno := sparams.destport, sunPath := letterPath site l }) := by
  obtain ⟨sparams, hscan, hdest, hfile, hletter⟩ := htext.scans hsite
  obtain ⟨e, ports, next, hpath, hfind⟩ := fetchEntryPath_spec sparams.filename
    (s.net.nodes n).nextPortno (h.paths.ne_nil n)
  have hstep : T.step s.net (.request n sparams env) =
      some (T.takeRequest s.net n sparams env) := by
    simp [Topology.step, h.alive n]
  have hpaths := h.paths.request (T := T) env hfile
  have hports : ((T.takeRequest s.net n sparams env).nodes n).ports = ports := by
    rw [takeRequest_nodes_self]
    exact (handlePeerMsg_ports (T.cfg n) _ hpath).1
  have hm := hletter _ _ e hstep hpaths (by rw [hports]; exact hfind)
  refine ⟨sparams, e, ports, next, hscan, hdest, hpath, hpaths, hm, ?_⟩
  rintro rfl
  rw [← hports]
  exact hm.fetch hpaths hfew

variable [DecidableEq Client]

/-- The message of a DATA frame for a node is that of a letter in the mail, and it finds the
socket of the letter there. -/
theorem Agrees.letter_of_frame (h : Agrees T site A s t) (hfew : FewClients site A)
    {p : Packet Node} (env : Env) (hp : p ∈ s.net.flight)
    (htype : FrameType.ofInt p.host.frameType = some .data) (hself : p.host.destIp = T.ip p.dst) :
    ∃ l ∈ t.mail, p.dst = l.dest site.home ∧ LetterMsg T site s.net l p.host.message ∧
      processDataMessage (heard env) (s.net.nodes p.dst).ports p.host =
        .sentTo (letterPath site l) p.host.message ∧
      ∃ others, onTheWay s.net = p.host.message ::ₘ others ∧
        Multiset.Rel (LetterMsg T site s.net) (t.mail.erase l) others := by
  obtain ⟨others, hothers⟩ := Multiset.exists_cons_of_mem (mem_onTheWay_of_flight hp htype)
  have hletters := h.mail
  rw [hothers] at hletters
  obtain ⟨l, mail, hm, hrel, hmail⟩ := Multiset.rel_cons_right.mp hletters
  have hdst : p.dst = l.dest site.home := T.selfIp_inj _ _ (hself.symm.trans hm.destIp)
  have hport : fetchEntryPort p.host.dstPort (s.net.nodes p.dst).ports =
      some { portno := p.host.dstPort, sunPath := letterPath site l } := by
    rw [hdst]
    exact hm.fetch h.paths hfew
  refine ⟨l, hmail ▸ Multiset.mem_cons_self l mail, hdst, hm, ?_, others, hothers, ?_⟩
  · rw [processDataMessage, hport]
    rfl
  · rw [hmail, Multiset.erase_cons_head]
    exact hrel

variable [Fintype Client]

/-- A client that has left has no letters any more. -/
theorem Agrees.not_exited (h : Agrees T site A s t) (hledger : t.Ledger)
    (hpos : 0 < t.anywhere fun l => decide (l.client = c)) : s.clients c ≠ .exited := by
  intro hc
  have hagree := h.clients c
  rw [hc] at hagree
  have hgone : t.status c = .gone := by
    generalize t.status c = st at hagree
    cases hagree
    rfl
  have hcount := hledger.count c
  rw [hgone, h.gone c hgone] at hcount
  rw [hcount] at hpos
  exact absurd hpos (Nat.lt_irrefl 0)

/-- A request is served on the spot or sent away. -/
theorem leads_takeText {text : String} (h : Agrees T site A s t) (hsite : SiteOk T site)
    (hfew : FewClients site A) (henv : env.LinksUp) (htext : RequestText T site A s.net n l text)
    (hc : s.clients l.client ≠ .exited) :
    ∃ s', site.takeText T s n text env = some s' ∧ Agrees T site A s'
      (if l.dest site.home = n then t.arrive l else { t with mail := l ::ₘ t.mail }) := by
  obtain ⟨sparams, e, ports, next, hscan, hdest, hpath, hpaths, hm, hport⟩ :=
    h.scanned hsite hfew (heard env) htext
  obtain ⟨h₀, ht, henv₀⟩ := h.run
  have hok := heard_succeeds henv
  have hstep : T.step s.net (.request n sparams (heard env)) =
      some (T.takeRequest s.net n sparams (heard env)) := by
    simp [Topology.step, h.alive n]
  have hway := onTheWay_step _ [] ht henv₀ (.snoc ht hstep)
    (List.forall_mem_cons.mpr ⟨hok, henv₀⟩) rfl (List.append_nil _).symm rfl
  have hmail := h.mail_step hstep
  simp only [Site.takeText, hscan]
  by_cases hn : l.dest site.home = n
  · subst hn
    rw [if_pos rfl]
    obtain ⟨hevents, hexit⟩ :=
      handlePeerMsg_of_local hok.toLinksUp hpath hdest.symm (hport rfl)
    rw [show sendToPeerProcess (heard env) _ _ = .sentTo (letterPath site l) _ from rfl] at hevents
    rw [withSockets_eq (by simpa [hevents, Site.reach] using bound_letter hc), hstep, hevents]
    have hself : (T.cfg (l.dest site.home)).selfIp = sparams.destip := hdest.symm
    rw [acceptedMsg, if_neg fun hne => hne.1 hself] at hway
    rw [show onTheWay s.net = _ from by simpa using hway.symm] at hmail
    exact ⟨_, rfl, (h.network hstep hok (alive_takeRequest h.alive hexit) h.kept hpaths
      hmail).arrive hsite hm⟩
  · rw [if_neg hn]
    have hself : (T.cfg n).selfIp ≠ sparams.destip := by
      rw [hdest]
      exact fun heq => hn (T.selfIp_inj _ _ heq.symm)
    obtain ⟨hevents, hexit⟩ := handlePeerMsg_of_remote hok hpath hself
      fun e he => (routesExist_of_trace ht n e he).choose_spec.hasInterface
    rw [withSockets_eq (by simp [hevents]), hstep, hevents]
    refine ⟨_, rfl, h.network hstep hok (alive_takeRequest h.alive hexit) h.kept hpaths ?_⟩
    have hcons : onTheWay (T.takeRequest s.net n sparams (heard env)) =
        sparams.message (T.ip n) e.portno ::ₘ onTheWay s.net := by
      rw [acceptedMsg, if_pos ⟨hself, hexit⟩, hpath] at hway
      rw [← Multiset.singleton_add, add_comm]
      simpa [Topology.ip] using hway
    rw [hcons]
    exact .cons hm hmail

/-- The daemon serves the first request at its socket, on the spot or by sending it away. -/
theorem leads_take (h : Agrees T site A s t) (hledger : t.Ledger) (hsite : SiteOk T site)
    (hfew : FewClients site A) (henv : env.LinksUp) {ls : List (Letter Client Node String)}
    (hout : t.out n = l :: ls) :
    Leads T site A s (.request n env)
      (if l.dest site.home = n then (t.setOut n ls).arrive l
        else { t.setOut n ls with mail := l ::ₘ t.mail }) := by
  have hproc := h.proc n
  rw [hout] at hproc
  obtain ⟨text, rest, htext, hls, hsock⟩ := List.forall₂_cons_left_iff.mp hproc
  have hc : s.clients l.client ≠ .exited := by
    apply h.not_exited hledger
    have htake := Post.anywhere_take (q := fun l' => decide (l'.client = l.client)) hout
    rw [if_pos (decide_eq_true rfl)] at htake
    omega
  simp only [Leads, Site.step, hsock]
  exact leads_takeText (h.setOut hls) hsite hfew henv htext hc

/-- A frame brings a letter to its destination, or no message ends. -/
theorem leads_deliver {k : Nat} {p : Packet Node} (h : Agrees T site A s t) (hledger : t.Ledger)
    (hsite : SiteOk T site) (hfew : FewClients site A) (henv : env.LinksUp)
    (hk : s.net.flight[k]? = some p) :
    Leads T site A s (.deliver k env) t ∨
      ∃ l ∈ t.mail, Leads T site A s (.deliver k env)
        ({ t with mail := t.mail.erase l }.arrive l) := by
  obtain ⟨h₀, ht, henv₀⟩ := h.run
  have hp : p ∈ s.net.flight := List.mem_of_getElem? hk
  have hok := heard_succeeds henv
  have hstep : T.step s.net (.deliver k (heard env)) =
      some (T.deliverPacket s.net p (s.net.flight.eraseIdx k) (heard env)) := by
    simp [Topology.step, hk, h.alive p.dst]
  have hpaths := h.paths.deliver (T := T) p (s.net.flight.eraseIdx k) (heard env)
  have halive := alive_deliverPacket (s.net.flight.eraseIdx k) h.alive
    (handleEthernetMsg_survives (framesWf_of_trace quiet_initial ht) (routesExist_of_trace ht)
      hok hp)
  have hway := fun done => onTheWay_step [] done ht henv₀ (.snoc ht hstep)
    (List.forall_mem_cons.mpr ⟨hok, henv₀⟩) (List.append_nil _).symm
  simp only [Leads, Site.step, hk, Site.takeFrame]
  rcases handleEthernetMsg_events (T.cfg p.dst) (heard env) p.ifIndex p.srcMac p.frame
    (s.net.nodes p.dst) with hevents | ⟨htype, hself, hevents⟩
  · left
    rw [withSockets_eq (by simp [hevents]), hstep, hevents]
    have hkept : (T.deliverPacket s.net p (s.net.flight.eraseIdx k) (heard env)).discarded =
        s.net.discarded := by
      simp [Topology.deliverPacket, hevents]
    have hsame := hway [] (by simp [Topology.deliverPacket, hevents]) hkept
    have hmail := h.mail_step hstep
    rw [show onTheWay s.net = _ from by simpa using hsame.symm] at hmail
    exact ⟨_, rfl, h.network hstep hok halive (hkept.trans h.kept) hpaths hmail⟩
  · right
    obtain ⟨l, hmem, hdst, hm, hevent, others, hothers, hrel⟩ :=
      h.letter_of_frame hfew env hp htype hself
    have hbound : site.bound s p.dst (letterPath site l) = true := by
      rw [hdst]
      exact bound_letter (h.not_exited hledger (Post.anywhere_pos_of_mail hmem (by simp)))
    rw [show processRecvdFrame p.frame = p.host from rfl, hevent] at hevents
    rw [withSockets_eq (by simpa [hevents, Site.reach] using hbound), hstep, hevents]
    have hkept : (T.deliverPacket s.net p (s.net.flight.eraseIdx k) (heard env)).discarded =
        s.net.discarded := by
      simp [Topology.deliverPacket, hevents, PeerEvent.unknownPort?]
    have hless := hway [p.host.message]
      (by simp [Topology.deliverPacket, hevents, PeerEvent.sent?]) hkept
    rw [hothers, ← Multiset.singleton_add, add_comm] at hless
    have hmail := hrel.mono fun _ _ _ _ hm => hm.step hstep
    rw [← show _ = others from by simpa using hless] at hmail
    have hagree := (h.network hstep hok halive (hkept.trans h.kept) hpaths hmail).arrive hsite
      (hm.step hstep)
    rw [← hdst] at hagree
    exact ⟨l, hmem, _, rfl, hagree⟩

end Daemons

/-! ## Runs -/

/-- Names resolve, and frames get onto the wire. -/
def LinksHold : AppAction Node Client → Prop
  | .request _ env => env.LinksUp
  | .deliver _ env => env.LinksUp
  | _ => True

/-- What a run is assumed to do: names resolve, frames get onto the wire, and a client whose
alarm has gone off does not leave. -/
structure Orderly (s : AppNet Node Client) (a : AppAction Node Client) : Prop where
  links : LinksHold a
  patient : ∀ c, a = .enter c "exit" → s.alarms c = 0

section Runs

variable {s s' : AppNet Node Client} {t : Post Client Node String} {c : Client} {n : Node}
  {h : List (AppNet Node Client × AppAction Node Client)}

variable [DecidableEq Client] [Fintype Client]

/-- The state is that of a post office after at most one more step. -/
def Follows (T : Topology Node) (site : Site Node Client) (t : Post Client Node String)
    (s' : AppNet Node Client) : Prop :=
  ∃ t', Relation.ReflGen (Post.Step site.home) t t' ∧ Agrees T site Finset.univ s' t'

theorem Leads.follows {a : AppAction Node Client} {t' : Post Client Node String}
    (h : Leads T site Finset.univ s a t') (hs : site.step T s a = some s')
    (ht : Relation.ReflGen (Post.Step site.home) t t') : Follows T site t s' := by
  obtain ⟨s'', hs'', hagree⟩ := h
  rw [hs] at hs''
  obtain rfl := Option.some.inj hs''
  exact ⟨t', ht, hagree⟩

theorem follows_enter {servVm : String} (h : Agrees T site Finset.univ s t) (hsite : SiteOk T site)
    (horderly : Orderly s (.enter c servVm))
    (hs : site.step T s (.enter c servVm) = some s') : Follows T site t s' := by
  have hst : t.status c = .idle := by
    have hagree := h.clients c
    simp only [Site.step] at hs
    split at hs
    · next hc =>
        rw [hc] at hagree
        generalize t.status c = st at hagree
        cases hagree
        rfl
    · cases hs
  by_cases hvm : servVm = "exit"
  · subst hvm
    have hquiet : t.retried c = 0 := by
      rw [h.alarms]
      exact horderly.patient c rfl
    exact (leads_leave h hst hquiet).follows hs (.single (.leave hst))
  · cases hip : site.canonicalIp servVm with
    | none =>
        simp only [Site.step, h.client_of_idle hst, Site.enter, hvm, hip] at hs
        obtain rfl := Option.some.inj hs
        exact ⟨t, .refl, h⟩
    | some canonIp =>
        obtain ⟨v, rfl⟩ := hsite.hosts servVm canonIp hip
        exact (leads_ask h (Finset.mem_univ c) hst hvm hip).follows hs (.single (.ask hst))

theorem follows_sigalrm (h : Agrees T site Finset.univ s t)
    (hs : site.step T s (.sigalrm c) = some s') : Follows T site t s' := by
  have hagree := h.clients c
  have henabled := hs
  simp only [Site.step] at henabled
  split at henabled
  · next servVm canonIp hc =>
      rw [hc] at hagree
      generalize hst : t.status c = st at hagree
      cases hagree with
      | waiting hvm =>
        exact (leads_retry h (Finset.mem_univ c) hst).follows hs (.single (.retry hst))
  · next servVm canonIp mparams hc =>
      rw [hc] at hagree
      generalize hst : t.status c = st at hagree
      cases hagree with
      | replied hvm =>
        exact (leads_overlook h (Finset.mem_univ c) hst).follows hs (.single (.overlook hst))
  · cases henabled

theorem follows_recv (h : Agrees T site Finset.univ s t) (hsite : SiteOk T site)
    (hs : site.step T s (.recv c) = some s') : Follows T site t s' := by
  have hagree := h.clients c
  have henabled := hs
  simp only [Site.step] at henabled
  split at henabled
  · next servVm canonIp armed buff rest hc hsock =>
      have hcli := h.cli c
      rw [hsock] at hcli
      obtain ⟨⟨w, msg⟩, xs, _, _, hbox⟩ := List.forall₂_cons_right_iff.mp hcli
      rw [hc] at hagree
      generalize hst : t.status c = st at hagree
      cases hagree with
      | waiting hvm => exact (leads_read h hsite hst hbox).follows hs (.single (.read hst hbox))
  · cases henabled

theorem follows_print (h : Agrees T site Finset.univ s t)
    (hs : site.step T s (.print c) = some s') : Follows T site t s' := by
  have hagree := h.clients c
  have henabled := hs
  simp only [Site.step] at henabled
  split at henabled
  · next servVm canonIp armed mparams hc =>
      rw [hc] at hagree
      generalize hst : t.status c = st at hagree
      cases hagree with
      | replied hvm => exact (leads_finish h hst).follows hs (.single (.finish hst))
  · cases henabled

theorem follows_serve {ticks : Tm} (h : Agrees T site Finset.univ s t) (hsite : SiteOk T site)
    (hs : site.step T s (.serve n ticks) = some s') : Follows T site t s' := by
  have henabled := hs
  simp only [Site.step] at henabled
  split at henabled
  · cases henabled
  · next buff rest hsock =>
      have hserv := h.serv n
      rw [hsock] at hserv
      obtain ⟨c, cs, _, _, hdesk⟩ := List.forall₂_cons_right_iff.mp hserv
      exact (leads_serve h hsite hdesk ticks).follows hs (.single (.serve hdesk))

theorem follows_request {env : Env} (h : Agrees T site Finset.univ s t) (hledger : t.Ledger)
    (hsite : SiteOk T site) (hfew : FewClients site Finset.univ) (henv : env.LinksUp)
    (hs : site.step T s (.request n env) = some s') : Follows T site t s' := by
  have henabled := hs
  simp only [Site.step] at henabled
  split at henabled
  · cases henabled
  · next text rest hsock =>
      have hproc := h.proc n
      rw [hsock] at hproc
      obtain ⟨l, ls, _, _, hout⟩ := List.forall₂_cons_right_iff.mp hproc
      refine (leads_take h hledger hsite hfew henv hout).follows hs (.single ?_)
      split_ifs with hdest
      · exact .inside hout hdest
      · exact .dispatch hout hdest

theorem follows_deliver {k : Nat} {env : Env} (h : Agrees T site Finset.univ s t)
    (hledger : t.Ledger) (hsite : SiteOk T site) (hfew : FewClients site Finset.univ)
    (henv : env.LinksUp) (hs : site.step T s (.deliver k env) = some s') : Follows T site t s' := by
  have henabled := hs
  simp only [Site.step] at henabled
  split at henabled
  · cases henabled
  · next p hk =>
      apply (leads_deliver h hledger hsite hfew henv hk).elim
      · intro hleads
        exact hleads.follows hs .refl
      · rintro ⟨l, hmem, hleads⟩
        exact hleads.follows hs (.single (.hand hmem))

theorem agrees_step {a : AppAction Node Client} (h : Agrees T site Finset.univ s t)
    (hledger : t.Ledger) (hsite : SiteOk T site) (hfew : FewClients site Finset.univ)
    (horderly : Orderly s a) (hs : site.step T s a = some s') : Follows T site t s' := by
  cases a with
  | enter c servVm => exact follows_enter h hsite horderly hs
  | sigalrm c => exact follows_sigalrm h hs
  | recv c => exact follows_recv h hsite hs
  | print c => exact follows_print h hs
  | serve n ticks => exact follows_serve h hsite hs
  | request n env => exact follows_request h hledger hsite hfew horderly.links hs
  | deliver k env => exact follows_deliver h hledger hsite hfew horderly.links hs

theorem agrees_of_trace (hsite : SiteOk T site) (hfew : FewClients site Finset.univ)
    (ht : Trace (site.step T) (AppNet.initial Node Client) h s)
    (horderly : ∀ x ∈ h, Orderly x.1 x.2) :
    ∃ t, Relation.ReflTransGen (Post.Step site.home) Post.initial t ∧
      Agrees T site Finset.univ s t := by
  apply ht.invariant_of_guard (G := Orderly) _ _ horderly
  · exact ⟨Post.initial, .refl, agrees_initial⟩
  · rintro s a s' ⟨t, hrun, hagree⟩ hG hs
    obtain ⟨t', hstep, hagree'⟩ := agrees_step hagree (Post.ledger_of_run hrun) hsite hfew hG hs
    exact ⟨t', hrun.trans hstep.to_reflTransGen, hagree'⟩

end Runs

end OnDemandRouting.Proofs
