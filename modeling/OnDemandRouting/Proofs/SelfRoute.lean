import OnDemandRouting.Proofs.Provenance

/-!
# Routes of a node to itself

The guard meant to drop a node's own frames compares two pointers and never fires.
So a node routes to itself, and relays its own flood, exactly when a frame with its
own address as source comes back to it and gets past the name lookups.
-/

namespace OnDemandRouting.Proofs

open OnDemandRouting.Lib
open OnDemandRouting.Model

variable {Node : Type} {T : Topology Node}

/-- The step delivers a frame to the node that is its source, and both addresses of
the frame have names. -/
def echoAt (T : Topology Node) (s : Net Node) : Action Node → Bool
  | .request _ _ _ => false
  | .deliver k env =>
      (s.flight[k]?).any fun p =>
        decide (p.host.srcIp = T.ip p.dst) && env.resolves p.host.srcIp &&
          env.resolves p.host.destIp

theorem echoAt_of_receipt {s s' : Net Node} {a : Action Node} {env : Env} {p : Packet Node}
    {type : FrameType} (hr : Receipt T s s' a env p type) (hsrc : p.host.srcIp = T.ip p.dst) :
    echoAt T s a = true := by
  obtain ⟨k, rfl, hk⟩ := hr.action
  have hname := hr.processed.srcName
  rw [hsrc] at hname
  simp [echoAt, hk, hsrc, hname, hr.processed.destName]

/-- If the step delivers a flood frame to the node that is its source, the node sends
nothing on receipt of it. -/
def ignoresOwnFlood (T : Topology Node) (s : Net Node) : Action Node → Bool
  | .request _ _ _ => true
  | .deliver k env =>
      (s.flight[k]?).all fun p =>
        if isFlood p.host = true ∧ p.host.srcIp = T.ip p.dst then
          (handleEthernetMsg (T.cfg p.dst) env p.ifIndex p.srcMac p.frame
            (s.nodes p.dst)).sent.isEmpty
        else true

/-- No table holds an entry for the address of its own node. -/
def NoSelfEntry (T : Topology Node) (s : Net Node) : Prop :=
  ∀ n, ∀ e ∈ (s.nodes n).table, e.destip ≠ T.ip n

variable [DecidableEq Node]

section Step

variable {s s' : Net Node} {a : Action Node} {env : Env} {p : Packet Node} {type : FrameType}

theorem noSelfEntry_step (hinv : NoSelfEntry T s) (hecho : echoAt T s a = false)
    (hs : T.step s a = some s') : NoSelfEntry T s' := by
  refine (preserve hs (fun _ => True) (fun n e => e.destip ≠ T.ip n) (fun _ _ => True)
    (fun _ _ => trivial) hinv (fun _ _ _ => trivial) ?entry (fun _ _ _ _ _ _ _ => trivial)
    (fun _ _ _ _ _ _ => trivial) (fun _ _ _ _ _ _ _ _ => trivial)
    (fun _ _ _ _ _ _ _ _ => trivial)).2.1
  case entry =>
    intro env p type hr hsrc
    have htrue := echoAt_of_receipt hr hsrc
    simp [htrue] at hecho

theorem ignoresOwnFlood_of_not_echo (hecho : echoAt T s a = false) :
    ignoresOwnFlood T s a = true := by
  cases a with
  | request n sparams env => rfl
  | deliver k env =>
      rw [ignoresOwnFlood, Option.all_eq_true]
      intro p hk
      split_ifs with hown
      · rw [List.isEmpty_iff, List.eq_nil_iff_forall_not_mem]
        intro t ht
        obtain ⟨type, hproc, _⟩ := handleEthernetMsg_sends ht
        have hr : Receipt T s _ (.deliver k env) env p type := receipt_of_processed hk hproc
        have htrue := echoAt_of_receipt hr hown.2
        simp [htrue] at hecho
      · rfl

/-- A frame that comes back to its source leaves an entry for the node itself, unless
there was one before. -/
theorem self_entry_of_echo (hwf : FramesWf T s) (hs : T.step s a = some s')
    (hecho : echoAt T s a = true) : ¬ NoSelfEntry T s ∨ ¬ NoSelfEntry T s' := by
  rcases step_cases hs with ⟨n, sparams, env, rfl, rfl⟩ | ⟨k, env, p, rfl, hk, rfl⟩
  · simp [echoAt] at hecho
  · simp only [echoAt, hk, Option.any_some, Bool.and_eq_true, decide_eq_true_eq] at hecho
    obtain ⟨⟨hsrc, hsrcName⟩, hdestName⟩ := hecho
    obtain ⟨type, htype⟩ := (hwf.flight p (List.mem_of_getElem? hk)).1.type_ok
    cases hdup : duplicateFilter p.host (s.nodes p.dst).table with
    | true =>
        -- the filter drops only what the table has an entry for
        left
        intro hno
        have hold := (of_decide_eq_true hdup).2
        obtain ⟨e, he, hdestip, _⟩ := isBroadidGreater_lt_iff.mp hold
        exact hno p.dst e he (hdestip.trans hsrc)
    | false =>
        right
        intro hno
        have hr : Receipt T s _ (.deliver k env) env p type :=
          receipt_of_processed hk ⟨hdup, hsrcName, hdestName, htype⟩
        obtain ⟨he, hdestip⟩ := route_mem hr.route_src
        exact hno p.dst _ he (hdestip.trans hsrc)

end Step

/-! ## When no node routes to itself -/

/-- Along a run no node ever has a route to itself, or relays or answers its own
flood, if and only if no frame that passes the name lookups is delivered to the node
that is its source. -/
theorem no_self_route_iff {h : List (Net Node × Action Node)} {s : Net Node}
    (ht : Trace T.step (Net.initial Node) h s) :
    ((∀ s₁ ∈ s :: past h, NoSelfEntry T s₁) ∧ ∀ x ∈ h, ignoresOwnFlood T x.1 x.2 = true) ↔
      ∀ x ∈ h, echoAt T x.1 x.2 = false := by
  induction ht with
  | nil =>
      have hinit : NoSelfEntry T (Net.initial Node) := by
        simp [NoSelfEntry, Net.initial, NodeState.initial]
      simp [past, hinit]
  | @snoc h s s' a ht hs ih =>
      constructor
      · rintro ⟨htables, hfloods⟩
        have hpast : ∀ x ∈ h, echoAt T x.1 x.2 = false :=
          ih.mp ⟨fun s₁ hs₁ => htables s₁ (List.mem_cons_of_mem _ hs₁),
            fun x hx => hfloods x (List.mem_cons_of_mem _ hx)⟩
        refine List.forall_mem_cons.mpr ⟨?_, hpast⟩
        rw [Bool.eq_false_iff]
        intro hecho
        rcases self_entry_of_echo (framesWf_of_trace quiet_initial ht) hs hecho with hbad | hbad
        · exact hbad (htables s (by simp [past]))
        · exact hbad (htables s' (by simp))
      · intro hecho
        obtain ⟨hlast, hpast⟩ := List.forall_mem_cons.mp hecho
        obtain ⟨htables, hfloods⟩ := ih.mpr hpast
        refine ⟨List.forall_mem_cons.mpr ⟨?_, htables⟩,
          List.forall_mem_cons.mpr ⟨ignoresOwnFlood_of_not_echo hlast, hfloods⟩⟩
        exact noSelfEntry_step (htables s (by simp)) hlast hs

theorem lineDiscovery_no_self_route : ∃ h s, Trace lineNet.step (Net.initial (Fin 3)) h s ∧
    (route (s.nodes 0).table "10.0.0.3").isSome ∧
    (∀ s₁ ∈ s :: past h, NoSelfEntry lineNet s₁) ∧
    ∀ x ∈ h, ignoresOwnFlood lineNet x.1 x.2 = true := by
  obtain ⟨h, s, ht, hp⟩ := Trace.exists_of_exec lineNet.step (Net.initial (Fin 3)) lineDiscovery
    (fun h s => (route (s.nodes 0).table "10.0.0.3").isSome &&
      h.all fun x => !echoAt lineNet x.1 x.2) (by decide +kernel)
  obtain ⟨hroute, hecho⟩ := Bool.and_eq_true _ _ ▸ hp
  refine ⟨h, s, ht, hroute, (no_self_route_iff ht).mpr fun x hx => ?_⟩
  simpa using List.all_eq_true.mp hecho x hx

/-- Node 0 relays its own request and has a route to itself. -/
theorem triangleRound_self_route : ∃ h s, Trace triangleNet.step (Net.initial (Fin 4)) h s ∧
    ¬ NoSelfEntry triangleNet s ∧ ∃ x ∈ h, ignoresOwnFlood triangleNet x.1 x.2 = false := by
  obtain ⟨h, s, ht, hp⟩ := Trace.exists_of_exec triangleNet.step (Net.initial (Fin 4))
    triangleRound (fun h s => (route (s.nodes 0).table (triangleNet.ip 0)).isSome &&
      h.any fun x => !ignoresOwnFlood triangleNet x.1 x.2) (by decide +kernel)
  obtain ⟨hself, hflood⟩ := Bool.and_eq_true _ _ ▸ hp
  obtain ⟨e, he⟩ := Option.isSome_iff_exists.mp hself
  obtain ⟨x, hx, hrelays⟩ := List.any_eq_true.mp hflood
  refine ⟨h, s, ht, fun hno => ?_, x, hx, by simpa using hrelays⟩
  obtain ⟨hmem, hdestip⟩ := route_mem he
  exact hno 0 e hmem hdestip

end OnDemandRouting.Proofs
