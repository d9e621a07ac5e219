import OnDemandRouting.Proofs.AppsRun

/-!
# What clients can rely on, and what they cannot

As long as a client whose alarm has gone off stays, the daemons stay as well, nobody gets
stuck, and the texts and messages in the whole system are accounted for.  A reply is
attributed to the server that sent it as long as the alarm has not gone off.

Both conditions are needed.  One retry is enough to leave a reply behind: the client takes it
for the answer of the next server it asks, and if it leaves instead, the reply ends the daemon
of its node.
-/

namespace OnDemandRouting.Proofs

open OnDemandRouting.Lib
open OnDemandRouting.Model

variable {Node Client : Type} {T : Topology Node} {site : Site Node Client} {A : Finset Client}

/-- A client at each end of the line, and names for its nodes. -/
def lineSite : Site (Fin 3) (Fin 2) where
  home := fun c => [0, 2].get c
  tempfile := fun c => ["/tmp/file_and_q1w2e3", "/tmp/file_and_r4t5y6"].get c
  canonicalIp := fun servVm =>
    if servVm = "vm1" then some "10.0.0.1"
    else if servVm = "vm2" then some "10.0.0.2"
    else if servVm = "vm3" then some "10.0.0.3"
    else none

theorem lineSite_ok : SiteOk lineNet lineSite where
  address n := by
    have hquads : ∀ n : Fin 3, lineNet.ip n = dottedQuad 10 0 0 (UInt8.ofNat (n + 1)) := by
      decide +kernel
    exact ⟨10, 0, 0, _, hquads n⟩
  hosts servVm ip h := by
    simp only [lineSite] at h
    split_ifs at h
    · exact ⟨0, Option.some.inj h⟩
    · exact ⟨1, Option.some.inj h⟩
    · exact ⟨2, Option.some.inj h⟩
  field c := by
    have hfields : ∀ c : Fin 2, lineSite.tempfile c ≠ "" ∧
        (lineSite.tempfile c).toList.all notSeparator = true := by decide +kernel
    exact ⟨(hfields c).1, List.all_eq_true.mp (hfields c).2⟩
  client := by decide
  distinct := by decide

theorem lineSite_few : FewClients lineSite Finset.univ :=
  fun _ => (Finset.card_filter_le _ _).trans (by decide)

/-- The client at the first node asks the server at the last for the time and prints the
reply.  The client there then asks its own server. -/
def lineExchange : List (AppAction (Fin 3) (Fin 2)) :=
  [.enter 0 "vm3", .request 0 (.reliable 0)] ++ List.replicate 6 (.deliver 0 (.reliable 1)) ++
    [.serve 2 { wday := 2, mon := 10, mday := 17, hour := 9, min := 5, sec := 0, year := 2026 },
      .request 2 (.reliable 1), .deliver 0 (.reliable 1), .deliver 0 (.reliable 1), .recv 0,
      .print 0, .enter 1 "vm3", .request 2 (.reliable 2)]

/-- The exchange on the line, as a run. -/
theorem lineExchange_run : ∃ h s,
    Trace (lineSite.step lineNet) (AppNet.initial (Fin 3) (Fin 2)) h s ∧
    (∀ x ∈ h, Orderly x.1 x.2) ∧ s.alarms 0 = 0 ∧ s.servSock 2 ≠ [] ∧
    ∃ mparams, (0, "vm3", mparams) ∈ s.printed := by
  obtain ⟨h, s, ht, hp, hquiet⟩ := Trace.exists_of_exec_forall (lineSite.step lineNet)
    (AppNet.initial (Fin 3) (Fin 2)) lineExchange
    (fun _ s => decide (s.alarms 0 = 0 ∧ s.servSock 2 ≠ [] ∧
      ∃ x ∈ s.printed, x.1 = 0 ∧ x.2.1 = "vm3"))
    (P := fun a => LinksHold a ∧ ∀ c, a ≠ .enter c "exit")
    (by simp [lineExchange, LinksHold, Env.reliable_linksUp]) (by decide +kernel)
  obtain ⟨halarms, hserv, ⟨c, servVm, mparams⟩, hprinted, rfl, rfl⟩ := of_decide_eq_true hp
  have horderly : ∀ x ∈ h, Orderly x.1 x.2 :=
    fun x hx => ⟨(hquiet x hx).1, fun c hc => absurd hc ((hquiet x hx).2 c)⟩
  exact ⟨h, s, ht, horderly, halarms, hserv, mparams, hprinted⟩

/-! ## What a client has seen -/

/-- The replies a client waits for. -/
def repliesDue : ClientState → Nat
  | .waiting _ _ _ => 1
  | _ => 0

theorem ClientAgrees.due {st : ClientState} {st' : Status Node String}
    (h : ClientAgrees T site st st') : st'.due = repliesDue st := by
  cases h <;> rfl

/-- A line that the client was told is one that it printed. -/
theorem Agrees.exists_printed [DecidableEq Node] [Fintype Node] {s : AppNet Node Client}
    {t : Post Client Node String} {c : Client} {v w : Node} {msg : String}
    (hagree : Agrees T site A s t) (htold : (c, v, w, msg) ∈ t.told) :
    ∃ name mparams, (c, name, mparams) ∈ s.printed ∧
      site.canonicalIp name = some (T.ip v) ∧ mparams.cliIp = T.ip w := by
  obtain ⟨⟨c', name, mparams⟩, hprinted, rfl, hname, rfl⟩ :=
    exists_mem_of_forall₂ hagree.printed htold
  exact ⟨name, _, hprinted, hname, rfl⟩

/-! ## A datagram for a client that has left -/

section Refused

variable [DecidableEq Node] [Fintype Client] {c : Client}

theorem bound_of_exited {s : AppNet Node Client} (hsite : SiteOk T site)
    (hc : s.clients c = .exited) : site.bound s (site.home c) (site.tempfile c) = false := by
  rw [Site.bound, Bool.or_eq_false_iff]
  refine ⟨decide_eq_false (hsite.client c), decide_eq_false ?_⟩
  rintro ⟨c', hhome, hfile, hc'⟩
  rw [hsite.distinct c' c hhome hfile] at hc'
  exact hc' hc

variable [DecidableEq Client]

/-- The environment in which the daemon of `n` serves a request. -/
def requestEnv (T : Topology Node) (site : Site Node Client) (s : AppNet Node Client) (n : Node)
    (sparams : SendParams) (env : Env) : Env :=
  site.withSockets s n (fun env => handlePeerMsg (T.cfg n) env sparams (s.net.nodes n)) env

/-- The daemon of `n` reads a request from its socket.  The datagram it sends for it finds
nobody at `sunPath`, the handler returns -1 and the daemon is gone. -/
structure RefusedAt (T : Topology Node) (site : Site Node Client) (s : AppNet Node Client)
    (n : Node) (sunPath : String) (env : Env) : Prop where
  call : ∃ text rest sparams msg, s.procSock n = text :: rest ∧
    getSendParams text = some sparams ∧
    (handlePeerMsg (T.cfg n) (requestEnv T site s n sparams env) sparams
      (s.net.nodes n)).events = [.sendFailed sunPath msg] ∧
    (handlePeerMsg (T.cfg n) (requestEnv T site s n sparams env) sparams
      (s.net.nodes n)).exit = .returned (-1)
  gone : ∃ s', site.step T s (.request n env) = some s' ∧ s'.net.alive n = false

/-- A request for a client of the node that has left fails, and that ends the daemon. -/
theorem refusedAt_of_exited {s : AppNet Node Client} {env : Env} {text : String}
    {rest : List String} {sparams : SendParams} {e pe : MapPortSp} {ports : List MapPortSp}
    {next : Int} (hsite : SiteOk T site) (henv : env.LinksUp) (hc : s.clients c = .exited)
    (halive : s.net.alive (site.home c) = true)
    (hsock : s.procSock (site.home c) = text :: rest) (hscan : getSendParams text = some sparams)
    (hdest : T.ip (site.home c) = sparams.destip)
    (hpath : fetchEntryPath sparams.filename (s.net.nodes (site.home c)).ports
      (s.net.nodes (site.home c)).nextPortno = some (e, ports, next))
    (hport : fetchEntryPort sparams.destport ports = some pe)
    (hpe : pe.sunPath = site.tempfile c) :
    RefusedAt T site s (site.home c) (site.tempfile c) env := by
  have hheard := (handlePeerMsg_of_local (heard_succeeds henv).toLinksUp hpath hdest hport).1
  have hdeaf : requestEnv T site s (site.home c) sparams env = { env with peerOk := false } := by
    rw [heard] at hheard
    rw [requestEnv, Site.withSockets, hheard]
    simp [sendToPeerProcess, Site.reach, hpe, bound_of_exited hsite hc]
  have hlinks : Env.LinksUp { env with peerOk := false } := ⟨henv.resolves, henv.sendOk⟩
  obtain ⟨hevents, hexit⟩ := handlePeerMsg_of_local hlinks hpath hdest hport
  have hstep : T.step s.net (.request (site.home c) sparams { env with peerOk := false }) =
      some (T.takeRequest s.net (site.home c) sparams { env with peerOk := false }) :=
    if_pos halive
  constructor
  case call =>
    refine ⟨text, rest, sparams, sparams.message (T.ip (site.home c)) e.portno, hsock, hscan, ?_⟩
    rw [hdeaf, hevents, hexit, ← hpe]
    exact ⟨rfl, rfl⟩
  case gone =>
    have hserved : site.withSockets
        { s with procSock := Function.update s.procSock (site.home c) rest } (site.home c)
        (fun env => handlePeerMsg (T.cfg (site.home c)) env sparams
          (s.net.nodes (site.home c))) env = { env with peerOk := false } := hdeaf
    simp only [Site.step, hsock, Site.takeText, hscan, hserved, hstep, Option.map_some, hevents]
    refine ⟨_, rfl, ?_⟩
    change (T.takeRequest s.net (site.home c) sparams { env with peerOk := false }).alive
      (site.home c) = false
    simp [Topology.takeRequest, hexit, Exit.survives]

end Refused

variable [DecidableEq Node] [DecidableEq Client] [Fintype Node] [Fintype Client]

/-! ## Orderly runs -/

section Orderly

variable {s : AppNet Node Client} {t : Post Client Node String} {c : Client} {n : Node}
  {h : List (AppNet Node Client × AppAction Node Client)}

/-- Something to do: a datagram at the socket of the process, or a frame that has come in. -/
def HasInput (s : AppNet Node Client) : AppAction Node Client → Prop
  | .recv c => s.cliSock c ≠ [] ∧ ∃ servVm ip armed, s.clients c = .waiting servVm ip armed
  | .serve n _ => s.servSock n ≠ []
  | .request n _ => s.procSock n ≠ []
  | .deliver k _ => k < s.net.flight.length
  | _ => False

theorem Leads.isSome {a : AppAction Node Client} {t' : Post Client Node String}
    (h : Leads T site A s a t') : (site.step T s a).isSome = true := by
  obtain ⟨s', hs, _⟩ := h
  rw [hs]
  rfl

/-- Whoever has something to do can do it. -/
theorem Agrees.isSome_step (hagree : Agrees T site A s t) (hledger : t.Ledger)
    (hsite : SiteOk T site) (hfew : FewClients site A) {a : AppAction Node Client}
    (hinput : HasInput s a) (hlinks : LinksHold a) : (site.step T s a).isSome = true := by
  cases a with
  | recv c =>
      obtain ⟨hsock, servVm, ip, armed, hc⟩ := hinput
      obtain ⟨⟨w, msg⟩, xs, hbox⟩ := exists_cons_of_forall₂ (hagree.cli c) hsock
      have hclient := hagree.clients c
      rw [hc] at hclient
      generalize hst : t.status c = st at hclient
      cases hclient with
      | waiting hvm => exact (leads_read hagree hsite hst hbox).isSome
  | serve n ticks =>
      obtain ⟨c, cs, hdesk⟩ := exists_cons_of_forall₂ (hagree.serv n) hinput
      exact (leads_serve hagree hsite hdesk ticks).isSome
  | request n env =>
      obtain ⟨l, ls, hout⟩ := exists_cons_of_forall₂ (hagree.proc n) hinput
      exact (leads_take hagree hledger hsite hfew hlinks hout).isSome
  | deliver k env =>
      apply (leads_deliver hagree hledger hsite hfew hlinks
        (List.getElem?_eq_getElem hinput)).elim
      · exact Leads.isSome
      · rintro ⟨l, _, hleads⟩
        exact hleads.isSome
  | enter c servVm => exact absurd hinput id
  | sigalrm c => exact absurd hinput id
  | print c => exact absurd hinput id

/-- In every orderly run the texts at the sockets and the messages between the nodes are as
many as there are clients that wait, plus one for every alarm that has gone off while its client
waited: no request and no reply is ever lost or doubled. -/
theorem exchanges_conserved (hsite : SiteOk T site) (hfew : FewClients site Finset.univ)
    (ht : Trace (site.step T) (AppNet.initial Node Client) h s)
    (horderly : ∀ x ∈ h, Orderly x.1 x.2) :
    ∑ n, (s.procSock n).length + (onTheWay s.net).card + ∑ n, (s.servSock n).length +
        ∑ c, (s.cliSock c).length =
      ∑ c, (repliesDue (s.clients c) + s.alarms c) := by
  obtain ⟨t, hrun, hagree⟩ := agrees_of_trace hsite hfew ht horderly
  have htotal := (Post.ledger_of_run hrun).total
  have hproc : ∀ n, (t.out n).length = (s.procSock n).length :=
    fun n => (hagree.proc n).length_eq
  have hserv : ∀ n, (t.desk n).length = (s.servSock n).length :=
    fun n => (hagree.serv n).length_eq
  have hcli : ∀ c, (t.box c).length = (s.cliSock c).length := fun c => (hagree.cli c).length_eq
  have hmail : t.mail.card = (onTheWay s.net).card := Multiset.card_eq_card_of_rel hagree.mail
  have hdue : ∀ c, (t.status c).due = repliesDue (s.clients c) := fun c => (hagree.clients c).due
  simp only [hproc, hserv, hcli, hmail, hdue, hagree.alarms] at htotal
  exact htotal

theorem lineExchange_conserved : ∃ h s,
    Trace (lineSite.step lineNet) (AppNet.initial (Fin 3) (Fin 2)) h s ∧ s.servSock 2 ≠ [] ∧
    ∑ n, (s.procSock n).length + (onTheWay s.net).card + ∑ n, (s.servSock n).length +
        ∑ c, (s.cliSock c).length =
      ∑ c, (repliesDue (s.clients c) + s.alarms c) := by
  obtain ⟨h, s, ht, horderly, _, hserv, _⟩ := lineExchange_run
  exact ⟨h, s, ht, hserv, exchanges_conserved lineSite_ok lineSite_few ht horderly⟩

/-- In every orderly run, what a client whose alarm has never gone off prints as the reply of a
host is the reply of the server there. -/
theorem reply_from_host_asked (hsite : SiteOk T site) (hfew : FewClients site Finset.univ)
    (ht : Trace (site.step T) (AppNet.initial Node Client) h s)
    (horderly : ∀ x ∈ h, Orderly x.1 x.2) {servVm : String} {mparams : MsgParams}
    (hprinted : (c, servVm, mparams) ∈ s.printed) (hquiet : s.alarms c = 0) :
    site.canonicalIp servVm = some mparams.cliIp ∧ mparams.port = servPort := by
  obtain ⟨t, hrun, hagree⟩ := agrees_of_trace hsite hfew ht horderly
  have hflip : List.Forall₂ (fun y x => PrintedAgrees T site x y) s.printed t.told :=
    List.Forall₂.flip hagree.printed
  obtain ⟨⟨c', v, w, msg⟩, htold, rfl, hvm, rfl⟩ := exists_mem_of_forall₂ hflip hprinted
  have hsame : w = v := by
    apply (Post.ledger_of_run hrun).told _ htold
    rw [hagree.alarms]
    exact hquiet
  rw [hsame]
  exact ⟨hvm, rfl⟩

theorem lineExchange_reply : ∃ h s mparams,
    Trace (lineSite.step lineNet) (AppNet.initial (Fin 3) (Fin 2)) h s ∧
    (0, "vm3", mparams) ∈ s.printed ∧ lineSite.canonicalIp "vm3" = some mparams.cliIp ∧
    mparams.port = servPort := by
  obtain ⟨h, s, ht, horderly, halarms, _, mparams, hprinted⟩ := lineExchange_run
  exact ⟨h, s, mparams, ht, hprinted,
    reply_from_host_asked lineSite_ok lineSite_few ht horderly hprinted halarms⟩

end Orderly

/-! ## A reply left behind -/

section Late

variable {t t' : Post Client Node String} {c : Client} {n v w : Node} {servVm : String}

/-- Some orderly run in which only the clients of `A` ask leads to a state that agrees
with `t`. -/
structure Realised (T : Topology Node) (site : Site Node Client) (A : Finset Client)
    (t : Post Client Node String) : Prop where
  post : Relation.ReflTransGen (Post.Step site.home) Post.initial t
  run : ∃ h s, Trace (site.step T) (AppNet.initial Node Client) h s ∧
    (∀ x ∈ h, Orderly x.1 x.2) ∧ Agrees T site A s t

theorem realised_initial : Realised T site A Post.initial :=
  ⟨.refl, [], _, .nil, by simp, agrees_initial⟩

theorem Realised.step (hreal : Realised T site A t) (hstep : Post.Step site.home t t')
    {a : AppAction Node Client} (hlinks : LinksHold a) (hstays : ∀ c, a ≠ .enter c "exit")
    (hleads : ∀ s, Agrees T site A s t → Leads T site A s a t') : Realised T site A t' := by
  obtain ⟨h, s, ht, horderly, hagree⟩ := hreal.run
  obtain ⟨s', hs, hagree'⟩ := hleads s hagree
  have hlast : Orderly s a := ⟨hlinks, fun c ha => absurd ha (hstays c)⟩
  exact ⟨hreal.post.tail hstep, (s, a) :: h, s', .snoc ht hs,
    List.forall_mem_cons.mpr ⟨hlast, horderly⟩, hagree'⟩

/-- What shows to the client `c` and at its node: what the client does and how often it has
lost patience, the letters at the counter, the questions on the desk of the server there, the
letters in the box of the client and what it has been told. -/
structure View (Node Client : Type) where
  status : Status Node String
  retried : ℕ
  out : List (Letter Client Node String)
  desk : List Client
  box : List (Node × String)
  told : List (Client × Node × Node × String)

def viewOf (site : Site Node Client) (c : Client) (t : Post Client Node String) :
    View Node Client where
  status := t.status c
  retried := t.retried c
  out := t.out (site.home c)
  desk := t.desk (site.home c)
  box := t.box c
  told := t.told

/-- Some orderly run in which only the client `c` asks leads to a state with this view. -/
def Seen (T : Topology Node) (site : Site Node Client) (c : Client) (x : View Node Client) :
    Prop :=
  ∃ t, Realised T site {c} t ∧ viewOf site c t = x

variable {k : ℕ} {st : Status Node String} {out : List (Letter Client Node String)}
  {desk : List Client} {box : List (Node × String)} {told : List (Client × Node × Node × String)}
  {armed : Bool} {msg : String}

theorem seen_initial (c : Client) : Seen T site c ⟨.idle, 0, [], [], [], []⟩ :=
  ⟨_, realised_initial, rfl⟩

theorem Seen.ask (h : Seen T site c ⟨.idle, k, out, desk, box, told⟩) (hexit : servVm ≠ "exit")
    (hvm : site.canonicalIp servVm = some (T.ip v)) :
    Seen T site c ⟨.waiting v true, k, out ++ [.ask c v], desk, box, told⟩ := by
  obtain ⟨t, hreal, hview⟩ := h
  obtain ⟨hst, rfl, rfl, rfl, rfl, rfl⟩ := View.mk.inj hview
  refine ⟨_, hreal.step (.ask hst) (a := .enter c servVm) trivial
    (fun _ ha => hexit (AppAction.enter.inj ha).2)
    fun _ h => leads_ask h (Finset.mem_singleton_self c) hst hexit hvm, ?_⟩
  simp [viewOf, Post.write, Post.setStatus]

theorem Seen.retry (h : Seen T site c ⟨.waiting v true, k, out, desk, box, told⟩) :
    Seen T site c ⟨.waiting v false, k + 1, out ++ [.ask c v], desk, box, told⟩ := by
  obtain ⟨t, hreal, hview⟩ := h
  obtain ⟨hst, rfl, rfl, rfl, rfl, rfl⟩ := View.mk.inj hview
  refine ⟨_, hreal.step (.retry hst) (a := .sigalrm c) trivial nofun
    fun _ h => leads_retry h (Finset.mem_singleton_self c) hst, ?_⟩
  simp [viewOf, Post.write, Post.setStatus]

/-- The daemon serves a request for its own node. -/
theorem Realised.inside (hreal : Realised T site {c} t) (hsite : SiteOk T site)
    {l : Letter Client Node String} {ls : List (Letter Client Node String)}
    (hout : t.out n = l :: ls) (hdest : l.dest site.home = n) :
    Realised T site {c} ((t.setOut n ls).arrive l) := by
  have hlinks := Env.reliable_linksUp 0
  apply hreal.step (.inside hout hdest) (a := .request n (.reliable 0)) hlinks nofun
  intro s h
  have htake := leads_take h (Post.ledger_of_run hreal.post) hsite (fewClients_singleton site c)
    hlinks hout
  rw [if_pos hdest] at htake
  exact htake

theorem Seen.question (h : Seen T site c ⟨st, k, .ask c (site.home c) :: out, desk, box, told⟩)
    (hsite : SiteOk T site) : Seen T site c ⟨st, k, out, desk ++ [c], box, told⟩ := by
  obtain ⟨t, hreal, hview⟩ := h
  obtain ⟨rfl, rfl, hout, rfl, rfl, rfl⟩ := View.mk.inj hview
  refine ⟨_, hreal.inside hsite hout rfl, ?_⟩
  simp [viewOf, Post.setOut, Post.arrive]

theorem Seen.answer (h : Seen T site c ⟨st, k, .answer c w msg :: out, desk, box, told⟩)
    (hsite : SiteOk T site) : Seen T site c ⟨st, k, out, desk, box ++ [(w, msg)], told⟩ := by
  obtain ⟨t, hreal, hview⟩ := h
  obtain ⟨rfl, rfl, hout, rfl, rfl, rfl⟩ := View.mk.inj hview
  refine ⟨_, hreal.inside hsite hout rfl, ?_⟩
  simp [viewOf, Post.setOut, Post.arrive]

theorem Seen.serve (h : Seen T site c ⟨st, k, out, c :: desk, box, told⟩) (hsite : SiteOk T site)
    (ticks : Tm) :
    Seen T site c ⟨st, k, out ++ [.answer c (site.home c) (timeMsg ticks)], desk, box, told⟩ := by
  obtain ⟨t, hreal, hview⟩ := h
  obtain ⟨rfl, rfl, rfl, hdesk, rfl, rfl⟩ := View.mk.inj hview
  refine ⟨_, hreal.step (.serve hdesk) (a := .serve (site.home c) ticks) trivial nofun
    fun _ h => leads_serve h hsite hdesk ticks, ?_⟩
  simp [viewOf, Post.setDesk, Post.write]

theorem Seen.read (h : Seen T site c ⟨.waiting v armed, k, out, desk, (w, msg) :: box, told⟩)
    (hsite : SiteOk T site) :
    Seen T site c ⟨.replied v armed w msg, k, out, desk, box, told⟩ := by
  obtain ⟨t, hreal, hview⟩ := h
  obtain ⟨hst, rfl, rfl, rfl, hbox, rfl⟩ := View.mk.inj hview
  refine ⟨_, hreal.step (.read hst hbox) (a := .recv c) trivial nofun
    fun _ h => leads_read h hsite hst hbox, ?_⟩
  simp [viewOf, Post.setBox, Post.setStatus]

theorem Seen.finish (h : Seen T site c ⟨.replied v armed w msg, k, out, desk, box, told⟩) :
    Seen T site c ⟨.idle, k, out, desk, box, told ++ [(c, v, w, msg)]⟩ := by
  obtain ⟨t, hreal, hview⟩ := h
  obtain ⟨hst, rfl, rfl, rfl, rfl, rfl⟩ := View.mk.inj hview
  refine ⟨_, hreal.step (.finish hst) (a := .print c) trivial nofun
    fun _ h => leads_finish h hst, ?_⟩
  simp [viewOf, Post.setStatus]

/-- A client asks the server of its own node and, after the alarm, once more.  When it has
printed the first reply, the second is on its way to it. -/
theorem seen_second_reply (hsite : SiteOk T site) (hexit : servVm ≠ "exit")
    (hvm : site.canonicalIp servVm = some (T.ip (site.home c))) (ticks : Tm) :
    Seen T site c ⟨.idle, 1, [.answer c (site.home c) (timeMsg ticks)], [], [],
      [(c, site.home c, site.home c, timeMsg ticks)]⟩ := by
  have hasked := ((seen_initial c).ask hexit hvm).retry
  have hserved := (((hasked.question hsite).question hsite).serve hsite ticks).serve hsite ticks
  exact ((hserved.answer hsite).read hsite).finish

/-- A client takes a reply left behind for that of the next host.  It asks the server of its own
node and, after the alarm, once more.  If it then asks any other node, it can print the second
reply of its own node as the reply of that one. -/
theorem late_reply_misattributed (hsite : SiteOk T site) {c : Client} {v : Node}
    {servVm servVm' : String} (hexit : servVm ≠ "exit") (hexit' : servVm' ≠ "exit")
    (hvm : site.canonicalIp servVm = some (T.ip (site.home c)))
    (hvm' : site.canonicalIp servVm' = some (T.ip v)) (hv : v ≠ site.home c) :
    ∃ h s, Trace (site.step T) (AppNet.initial Node Client) h s ∧
      (∀ x ∈ h, Orderly x.1 x.2) ∧ s.alarms c = 1 ∧
      ∃ name mparams, (c, name, mparams) ∈ s.printed ∧
        site.canonicalIp name = some (T.ip v) ∧ mparams.cliIp = T.ip (site.home c) ∧
        site.canonicalIp name ≠ some mparams.cliIp := by
  let ticks : Tm := ⟨0, 0, 1, 0, 0, 0, 1970⟩
  have hwaiting := ((seen_second_reply hsite hexit hvm ticks).answer hsite).ask hexit' hvm'
  obtain ⟨t, hreal, hview⟩ := (hwaiting.read hsite).finish
  obtain ⟨_, hretried, _, _, _, htold⟩ := View.mk.inj hview
  obtain ⟨h, s, ht, horderly, hagree⟩ := hreal.run
  obtain ⟨name, mparams, hprinted, hname, hip⟩ :=
    hagree.exists_printed (htold ▸ List.mem_append_right _ (List.mem_singleton_self _))
  refine ⟨h, s, ht, horderly, hagree.alarms ▸ hretried, name, mparams, hprinted, hname, hip, ?_⟩
  rw [hname, hip]
  exact fun heq => hv (T.selfIp_inj _ _ (Option.some.inj heq))

theorem lineReply_misattributed : ∃ h s,
    Trace (lineSite.step lineNet) (AppNet.initial (Fin 3) (Fin 2)) h s ∧
      (∀ x ∈ h, Orderly x.1 x.2) ∧ s.alarms 0 = 1 ∧
      ∃ name mparams, (0, name, mparams) ∈ s.printed ∧
        lineSite.canonicalIp name = some (lineNet.ip 2) ∧ mparams.cliIp = lineNet.ip 0 ∧
        lineSite.canonicalIp name ≠ some mparams.cliIp := by
  have hvm : lineSite.canonicalIp "vm1" = some (lineNet.ip (lineSite.home 0)) := by decide +kernel
  have hvm' : lineSite.canonicalIp "vm3" = some (lineNet.ip 2) := by decide +kernel
  exact late_reply_misattributed lineSite_ok (by decide) (by decide) hvm hvm' (by decide)

/-- A reply left behind ends the daemon.  A client asks the server of its own node and, after
the alarm, once more.  It prints the first reply and leaves.  The second reply of the server is
then at the daemon of its node: the datagram for the client is refused, and the daemon stops. -/
theorem late_reply_stops_daemon (hsite : SiteOk T site) {c : Client} {servVm : String}
    (hexit : servVm ≠ "exit") (hvm : site.canonicalIp servVm = some (T.ip (site.home c))) :
    ∃ h s, Trace (site.step T) (AppNet.initial Node Client) h s ∧ (∀ x ∈ h, LinksHold x.2) ∧
      s.alarms c = 1 ∧ s.clients c = .exited ∧
      (∃ name mparams, (c, name, mparams) ∈ s.printed ∧
        site.canonicalIp name = some (T.ip (site.home c)) ∧
        mparams.cliIp = T.ip (site.home c)) ∧
      (∀ n, s.net.alive n = true) ∧
      (∃ port ticks, s.procSock (site.home c) =
        [msgSend (T.ip (site.home c)) port (timeMsg ticks) 0 unixServPath]) ∧
      ∀ env, env.LinksUp → RefusedAt T site s (site.home c) (site.tempfile c) env := by
  obtain ⟨t, hreal, hview⟩ := seen_second_reply hsite hexit hvm ⟨0, 0, 1, 0, 0, 0, 1970⟩
  obtain ⟨hst, hretried, hout, _, _, htold⟩ := View.mk.inj hview
  obtain ⟨h, s, ht, horderly, hagree⟩ := hreal.run
  have hleft : site.step T s (.enter c "exit") = some (s.setClient c .exited) := by
    simp [Site.step, hagree.client_of_idle hst, Site.enter]
  have hproc := hagree.proc (site.home c)
  rw [hout] at hproc
  obtain ⟨text, rest, htext, hrest, hsock⟩ := List.forall₂_cons_left_iff.mp hproc
  have hreply : ∃ port ticks, s.procSock (site.home c) =
      [msgSend (T.ip (site.home c)) port (timeMsg ticks) 0 unixServPath] := by
    obtain ⟨_, _, port, _, rfl⟩ := htext
    rw [hsock, List.forall₂_nil_left_iff.mp hrest]
    exact ⟨port, _, rfl⟩
  obtain ⟨sparams, e, ports, next, hscan, hdest, hpath, _, _, hport⟩ :=
    hagree.scanned hsite (fewClients_singleton site c) (.reliable 0) htext
  have hlinks : ∀ x ∈ h, LinksHold x.2 := fun x hx => (horderly x hx).links
  have hgone : (s.setClient c .exited).clients c = .exited := by simp [AppNet.setClient]
  refine ⟨_, s.setClient c .exited, ht.snoc hleft, List.forall_mem_cons.mpr ⟨trivial, hlinks⟩,
    hagree.alarms ▸ hretried, hgone,
    hagree.exists_printed (htold ▸ List.mem_singleton_self _), hagree.alive, hreply,
    fun env henv => ?_⟩
  exact refusedAt_of_exited hsite henv hgone (hagree.alive _) hsock hscan hdest.symm hpath
    (hport rfl) rfl

theorem lineReply_stops : ∃ h s,
    Trace (lineSite.step lineNet) (AppNet.initial (Fin 3) (Fin 2)) h s ∧
      s.alarms 0 = 1 ∧ s.clients 0 = .exited ∧
      ∃ s', lineSite.step lineNet s (.request 0 (.reliable 0)) = some s' ∧
        s'.net.alive 0 = false := by
  have hvm : lineSite.canonicalIp "vm1" = some (lineNet.ip (lineSite.home 0)) := by decide +kernel
  obtain ⟨h, s, ht, _, halarms, hgone, _, _, _, hrefused⟩ :=
    late_reply_stops_daemon lineSite_ok (by decide) hvm
  exact ⟨h, s, ht, halarms, hgone, (hrefused (.reliable 0) (Env.reliable_linksUp 0)).gone⟩

end Late

end OnDemandRouting.Proofs
