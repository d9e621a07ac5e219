import OnDemandRouting.Model.RouteHeap
import OnDemandRouting.Proofs.Representation
import OnDemandRouting.Proofs.UniqueRoutes

/-!
# The pointers of the routing table

The table in memory is a doubly linked list, and its entries in chain order are the
table of the list model: every handler call on the one leaves the entries, and has the
effects, of the call on the other.  In particular `dest_r_entry`, which is read after the
source's entry may have been rewritten or unlinked, points at what `derefDest` says.
That no two entries share an address is taken from the list model.
-/

namespace OnDemandRouting.Proofs

open OnDemandRouting.Lib
open OnDemandRouting.Model
open OnDemandRouting.Model.RouteHeap (Table NodeHeap)

/-- The list from `routing_table_head` goes through the addresses and entries of `l`. -/
structure TableAt (t : Table) (l : List (Nat × REntry)) : Prop where
  chain : Chain t.heap none t.head l
  addrs : (l.map Prod.fst).Nodup

/-! ## The loops -/

section Table

variable {t : Table} {l l₁ l₂ : List (Nat × REntry)} {a b : Nat} {e e' : REntry}
  {q : REntry → Bool} {staleParam now : Int} {ip : Ip} {flag : Int} {f : OdrFrame}
  {intfN : Int} {mac : Mac}

theorem TableAt.scan_eq (ht : TableAt t l) (q : REntry → Bool) :
    t.scan q = (l.find? fun x => q x.2).map Prod.fst :=
  ht.chain.search_eq q (Nat.lt_succ_of_le (ht.chain.length_le ht.addrs))

theorem TableAt.entryAt (ht : TableAt t l) (hx : (a, e) ∈ l) : t.entryAt a = some e := by
  obtain ⟨n, p, hcell⟩ := ht.chain.exists_cell hx
  rw [Table.entryAt, hcell]
  rfl

/-- A loop stops at the first entry that it accepts. -/
theorem TableAt.scan_cases (ht : TableAt t l) (q : REntry → Bool) :
    (t.scan q = none ∧ ∀ x ∈ l, q x.2 = false) ∨
    ∃ l₁ a e l₂, t.scan q = some a ∧ l = l₁ ++ (a, e) :: l₂ ∧ (∀ x ∈ l₁, q x.2 = false) ∧
      q e = true := by
  rw [ht.scan_eq]
  cases hfind : l.find? fun x => q x.2 with
  | none =>
      refine .inl ⟨rfl, fun x hx => ?_⟩
      simpa using List.find?_eq_none.mp hfind x hx
  | some x =>
      obtain ⟨hq, l₁, l₂, rfl, hbefore⟩ := List.find?_eq_some_iff_append.mp hfind
      refine .inr ⟨l₁, x.1, x.2, l₂, rfl, rfl, fun y hy => ?_, hq⟩
      simpa using hbefore y hy

/-- A loop that looks for an address stops at the first entry with it. -/
theorem TableAt.scan_dest (ht : TableAt t l) (ip : Ip) :
    (t.scan (fun e => decide (e.destip = ip)) = none ∧ ∀ x ∈ l, x.2.destip ≠ ip) ∨
    ∃ l₁ a e l₂, t.scan (fun e => decide (e.destip = ip)) = some a ∧
      l = l₁ ++ (a, e) :: l₂ ∧ (∀ x ∈ l₁, x.2.destip ≠ ip) ∧ e.destip = ip := by
  simpa only [decide_eq_true_eq, decide_eq_false_iff_not] using
    ht.scan_cases fun e => decide (e.destip = ip)

theorem isBroadidGreater_heap (ht : TableAt t l) (bid : Int) :
    RouteHeap.isBroadidGreater ip bid t < 0 ↔
      isBroadidGreater ip bid (l.map Prod.snd) < 0 := by
  rw [isBroadidGreater_lt_iff, RouteHeap.isBroadidGreater, ht.scan_eq]
  cases hfind : l.find? fun x => decide (x.2.destip = ip ∧ x.2.broadcastId ≥ bid) with
  | none =>
      simp only [Option.map_none, List.mem_map]
      constructor
      · intro h
        exact absurd h (by decide)
      · rintro ⟨_, ⟨x, hx, rfl⟩, hx'⟩
        exact absurd hx' (by simpa using List.find?_eq_none.mp hfind x hx)
  | some x =>
      have hx := List.find?_some hfind
      refine iff_of_true (show (-1 : Int) < 0 by decide) ⟨x.2, ?_, by simpa using hx⟩
      exact List.mem_map_of_mem (List.mem_of_find?_eq_some hfind)

/-! ## Edits of the table -/

theorem TableAt.unlink (ht : TableAt t (l₁ ++ (a, e) :: l₂)) :
    TableAt (t.unlink a) (l₁ ++ l₂) := by
  have hnd := ht.addrs
  refine ⟨?_, hnd.sublist (((List.sublist_cons_self _ _).append_left l₁).map Prod.fst)⟩
  have hhead : t.head = some a ↔ l₁ = [] := ht.chain.start_eq_some_iff hnd
  have hchain := ht.chain.unlink hnd fun _ => rfl
  simp only [Table.unlink, hhead]
  exact hchain

theorem entryAt_unlink : (t.unlink a).entryAt b = t.entryAt b := by
  simp only [Table.entryAt, Table.unlink, unlinkCell, getElem?_setPrev, getElem?_setNext]
  split_ifs <;> cases t.heap[b]? <;> rfl

theorem insertREntry_eq (f : OdrFrame) (intfN : Int) (mac : Mac) (now : Int) (t : Table) :
    RouteHeap.insertREntry f intfN mac now t =
      (t.heap.length,
        { heap := setNext (some t.heap.length) t.head
            (setPrev t.head (some t.heap.length)
              (alloc (updateREntry f intfN mac now) t.heap))
          head := some t.heap.length }) := by
  rw [RouteHeap.insertREntry]
  cases hhead : t.head with
  | some head => rfl
  | none => simp only [setPrev, setNext_alloc_self]

theorem TableAt.insert (ht : TableAt t l) (f : OdrFrame) (intfN : Int) (mac : Mac) (now : Int) :
    TableAt (RouteHeap.insertREntry f intfN mac now t).2
      ((t.heap.length, updateREntry f intfN mac now) :: l) := by
  obtain ⟨hchain, hnd⟩ := ht.chain.push ht.addrs (updateREntry f intfN mac now)
  rw [insertREntry_eq]
  exact ⟨hchain, hnd⟩

theorem entryAt_insert (hb : b < t.heap.length) :
    (RouteHeap.insertREntry f intfN mac now t).2.entryAt b = t.entryAt b := by
  rw [insertREntry_eq]
  simp only [Table.entryAt, getElem?_setNext, getElem?_setPrev, getElem?_alloc_of_lt hb]
  split_ifs <;> cases t.heap[b]? <;> rfl

theorem TableAt.setVal (ht : TableAt t (l₁ ++ (a, e) :: l₂)) (e' : REntry) :
    TableAt { t with heap := Lib.setVal a e' t.heap } (l₁ ++ (a, e') :: l₂) := by
  have hset := ht.chain.set_val a e'
  rw [map_update_append ht.addrs] at hset
  exact ⟨hset, by simpa using ht.addrs⟩

theorem entryAt_check (hne : a ≠ b) :
    (RouteHeap.checkREntry f a intfN mac now t).2.entryAt b = t.entryAt b := by
  rw [RouteHeap.checkREntry]
  split_ifs
  · simp [Table.entryAt, getElem?_setVal, hne]
  · rfl

/-! ## Lookups -/

/-- `get_r_entry` finds no entry, unlinks the first one for the address, or returns its
address. -/
theorem getREntry_heap_cases (ht : TableAt t l) (staleParam now : Int) (ip : Ip) (flag : Int) :
    ((∀ x ∈ l, x.2.destip ≠ ip) ∧ RouteHeap.getREntry staleParam now ip flag t =
      { entry := none, table := t, deleted := false }) ∨
    ∃ l₁ a e l₂, l = l₁ ++ (a, e) :: l₂ ∧ (∀ x ∈ l₁, x.2.destip ≠ ip) ∧ e.destip = ip ∧
      ((now - e.timestamp ≥ staleParam ∨ flag = 1) ∧
          RouteHeap.getREntry staleParam now ip flag t =
            { entry := none, table := t.unlink a, deleted := true } ∨
        (now - e.timestamp < staleParam ∧ flag ≠ 1) ∧
          RouteHeap.getREntry staleParam now ip flag t =
            { entry := some a, table := t, deleted := false }) := by
  rcases ht.scan_dest ip with ⟨hscan, hnone⟩ | ⟨l₁, a, e, l₂, hscan, rfl, hbefore, hkey⟩
  · exact .inl ⟨hnone, by rw [RouteHeap.getREntry, hscan]⟩
  · refine .inr ⟨l₁, a, e, l₂, rfl, hbefore, hkey, ?_⟩
    have hentry : t.entryAt a = some e := ht.entryAt (by simp)
    by_cases hdel : now - e.timestamp ≥ staleParam ∨ flag = 1
    · refine .inl ⟨hdel, ?_⟩
      simp [RouteHeap.getREntry, hscan, hentry, hdel]
    · have hkeep : now - e.timestamp < staleParam ∧ flag ≠ 1 := by omega
      refine .inr ⟨hkeep, ?_⟩
      simp [RouteHeap.getREntry, hscan, hentry, hdel]

/-- A lookup for `ip` in memory beside the same lookup in the list model: the table is at
`l`, and a pointer that was found is that of the first entry for `ip`. -/
structure FoundAt (ip : Ip) (r : Lookup Table Nat) (r' : Lookup) (l : List (Nat × REntry)) :
    Prop where
  table : TableAt r.table l
  entries : l.map Prod.snd = r'.table
  deleted : r.deleted = r'.deleted
  ptr : r.entry = none ∧ r'.entry = none ∨
    ∃ l₁ a e l₂, r.entry = some a ∧ r'.entry = some e ∧ l = l₁ ++ (a, e) :: l₂ ∧
      (∀ x ∈ l₁, x.2.destip ≠ ip) ∧ e.destip = ip

theorem getREntry_heap (ht : TableAt t l) (staleParam now : Int) (ip : Ip) (flag : Int) :
    ∃ l', FoundAt ip (RouteHeap.getREntry staleParam now ip flag t)
      (getREntry staleParam now ip flag (l.map Prod.snd)) l' := by
  rcases getREntry_heap_cases ht staleParam now ip flag with
    ⟨hnone, hget⟩ | ⟨l₁, a, e, l₂, rfl, hbefore, hkey, hcase⟩
  · have hroute : route (l.map Prod.snd) ip = none :=
      findKey_eq_none_iff.mpr (List.forall_mem_map.mpr hnone)
    rw [hget, getREntry_of_absent hroute]
    exact ⟨l, ht, rfl, rfl, .inl ⟨rfl, rfl⟩⟩
  · have hbefore' : ∀ e ∈ l₁.map Prod.snd, e.destip ≠ ip := List.forall_mem_map.mpr hbefore
    have hroute : route ((l₁ ++ (a, e) :: l₂).map Prod.snd) ip = some e := by
      rw [List.map_append, List.map_cons]
      exact findKey_append hbefore' hkey
    rcases hcase with ⟨hdel, hget⟩ | ⟨hkeep, hget⟩
    · rw [hget, getREntry_of_expired hroute hdel]
      refine ⟨l₁ ++ l₂, ht.unlink, ?_, rfl, .inl ⟨rfl, rfl⟩⟩
      rw [List.map_append, List.map_append, List.map_cons]
      exact (eraseKey_append hbefore' hkey).symm
    · rw [hget, getREntry_of_fresh hroute hkeep]
      exact ⟨_, ht, rfl, rfl, .inr ⟨l₁, a, e, l₂, rfl, rfl, rfl, hbefore, hkey⟩⟩

/-- The pointer that was found points at the entry that was found. -/
theorem FoundAt.deref {r : Lookup Table Nat} {r' : Lookup} (hf : FoundAt ip r r' l) :
    r.entry.bind r.table.entryAt = r'.entry := by
  rcases hf.ptr with ⟨hptr, hentry⟩ | ⟨_, a, e, _, hptr, hentry, rfl, _, _⟩
  · rw [hptr, hentry]
    rfl
  · rw [hptr, hentry]
    exact hf.table.entryAt (by simp)

/-! ## Learning the source's route -/

/-- The choice between update and insertion in memory, beside that of the list model. -/
structure LearnedAt (r : Learned Table Nat) (r' : Learned) (l : List (Nat × REntry)) : Prop where
  table : TableAt r.table l
  entries : l.map Prod.snd = r'.table
  flag : r.flag = r'.flag
  entry : r.table.entryAt r.entry = some r'.entry

theorem learnSource_ptr_none {src : Lookup Table Nat} (h : src.entry = none) :
    learnSource f intfN mac now src =
      { flag := true
        entry := (RouteHeap.insertREntry f intfN mac now src.table).1
        table := (RouteHeap.insertREntry f intfN mac now src.table).2 } := by
  rw [learnSource, h]
  rfl

theorem learnSource_ptr_some {src : Lookup Table Nat} (h : src.entry = some a) :
    learnSource f intfN mac now src =
      { flag := (RouteHeap.checkREntry f a intfN mac now src.table).1
        entry := a
        table := (RouteHeap.checkREntry f a intfN mac now src.table).2 } := by
  rw [learnSource, h]
  rfl

theorem learnSource_heap {src : Lookup Table Nat} {src' : Lookup} (hf : FoundAt f.srcIp src src' l)
    (intfN : Int) (mac : Mac) (now : Int) :
    ∃ l', LearnedAt (learnSource f intfN mac now src)
      (learnSource f intfN mac now src') l' := by
  rcases hf.ptr with ⟨hptr, hentry⟩ | ⟨l₁, a, e, l₂, hptr, hentry, rfl, hbefore, hkey⟩
  · have hins := hf.table.insert f intfN mac now
    refine ⟨(src.table.heap.length, updateREntry f intfN mac now) :: l, ?_⟩
    rw [learnSource_ptr_none hptr, learnSource_of_none hentry]
    refine ⟨hins, ?_, rfl, ?_⟩
    · rw [List.map_cons, hf.entries]
      rfl
    · simp only [insertREntry_eq] at hins ⊢
      exact hins.entryAt (by simp)
  · have hat : src.table.entryAt a = some e := hf.table.entryAt (by simp)
    have hbefore' : ∀ e ∈ l₁.map Prod.snd, e.destip ≠ f.srcIp := List.forall_mem_map.mpr hbefore
    have hreplace : ∀ e', replaceKey REntry.destip f.srcIp e' src'.table =
        (l₁ ++ (a, e') :: l₂).map Prod.snd := by
      intro e'
      rw [← hf.entries, List.map_append, List.map_cons, List.map_append, List.map_cons]
      exact replaceKey_append hbefore' hkey
    rw [learnSource_ptr_some hptr, learnSource_of_some hentry]
    simp only [RouteHeap.checkREntry, hat, Option.any_some, checkREntry]
    split_ifs with hacc
    · have hset := hf.table.setVal (updateREntry f intfN mac now)
      exact ⟨_, hset, (hreplace _).symm, rfl, hset.entryAt (by simp)⟩
    · exact ⟨_, hf.table, (hreplace _).symm, rfl, hat⟩

/-! ## The two pointers of the handler -/

theorem entryAt_getREntry :
    (RouteHeap.getREntry staleParam now ip flag t).table.entryAt b = t.entryAt b := by
  rw [RouteHeap.getREntry]
  split
  · rfl
  · split_ifs
    · exact entryAt_unlink
    · rfl

theorem getREntry_ptr (h : (RouteHeap.getREntry staleParam now ip flag t).entry = some a) :
    t.scan (fun e => decide (e.destip = ip)) = some a ∧
      (RouteHeap.getREntry staleParam now ip flag t).table = t := by
  rw [RouteHeap.getREntry] at h ⊢
  split at h
  · simp at h
  · next curr hscan =>
      split_ifs at h with hdel
      obtain rfl := Option.some.inj h
      rw [hscan]
      simp only [if_neg hdel, and_self]

theorem lt_length_of_entryAt (h : t.entryAt a = some e) : a < t.heap.length := by
  obtain ⟨c, hc, -⟩ := Option.map_eq_some_iff.mp h
  exact (List.getElem?_eq_some_iff.mp hc).1

end Table

/-! ## The handlers -/

/-- The table of the list model that a table in memory stands for. -/
def Listed (t : Table) (table : List REntry) : Prop := ∃ l, TableAt t l ∧ l.map Prod.snd = table

section Lookups

variable {Queue Queue' : Type} {st : NodeState Table Queue} {st' : NodeState (List REntry) Queue'}
  {cfg : Config} {env : Env} {intfN : Int} {addr : Mac} {f : OdrFrame}

theorem destLookup_heap (h : Listed st.table st'.table) (cfg : Config) (env : Env)
    (f : OdrFrame) :
    ∃ l, FoundAt f.destIp (destLookup cfg env f st) (destLookup cfg env f st') l := by
  obtain ⟨l, ht, hl⟩ := h
  rw [destLookup, destLookup, ← hl]
  exact getREntry_heap ht ..

theorem srcLookup_heap (h : Listed st.table st'.table) (cfg : Config) (env : Env)
    (f : OdrFrame) :
    ∃ l, FoundAt f.srcIp (srcLookup cfg env f st) (srcLookup cfg env f st') l := by
  obtain ⟨l, hdest⟩ := destLookup_heap h cfg env f
  rw [srcLookup, srcLookup, ← hdest.entries]
  exact getREntry_heap hdest.table ..

theorem learnedRoute_heap (h : Listed st.table st'.table) (cfg : Config) (env : Env)
    (intfN : Int) (addr : Mac) (f : OdrFrame) :
    ∃ l, LearnedAt (learnedRoute cfg env intfN addr f st)
      (learnedRoute cfg env intfN addr f st') l := by
  obtain ⟨l, hsrc⟩ := srcLookup_heap h cfg env f
  exact learnSource_heap hsrc ..

/-- `dest_r_entry` points at what the list model takes from it.  Between the lookup and
the use the entry is rewritten if `src_r_entry` is the same pointer, and it keeps its
value if it was unlinked by the second lookup. -/
theorem derefDest_heap (h : Listed st.table st'.table) :
    derefDest cfg env intfN addr f st = derefDest cfg env intfN addr f st' := by
  obtain ⟨_, hdest⟩ := destLookup_heap h cfg env f
  obtain ⟨_, hsrc⟩ := srcLookup_heap h cfg env f
  obtain ⟨_, hlearned⟩ := learnedRoute_heap h cfg env intfN addr f
  have hheap : derefDest cfg env intfN addr f st =
      (destLookup cfg env f st).entry.bind
        (learnedRoute cfg env intfN addr f st).table.entryAt := rfl
  rw [hheap, derefDest, rereadDest_list, rereadDest]
  rcases hdest.ptr with ⟨hptr, hentry⟩ | ⟨_, a, e, _, hptr, hentry, rfl, _, hkey⟩
  · simp [hptr, hentry]
  · have hat : (srcLookup cfg env f st).table.entryAt a = some e := by
      have hkept : (srcLookup cfg env f st).table.entryAt a =
          (destLookup cfg env f st).table.entryAt a := entryAt_getREntry
      rw [hkept]
      exact hdest.table.entryAt (by simp)
    rw [hptr, Option.bind_some, hentry]
    rcases hsrc.ptr with ⟨hptr', hentry'⟩ | ⟨_, b, e', _, hptr', hentry', rfl, _, hkey'⟩
    · -- the source is inserted, behind the end of the memory
      have hkept : (learnedRoute cfg env intfN addr f st).table.entryAt a =
          (srcLookup cfg env f st).table.entryAt a := by
        rw [learnedRoute, learnSource_ptr_none hptr']
        exact entryAt_insert (lt_length_of_entryAt hat)
      simp [hkept, hat, hentry']
    · by_cases hips : f.srcIp = f.destIp
      · -- both lookups stopped at the same entry
        obtain ⟨hscan, htable⟩ := getREntry_ptr hptr
        obtain ⟨hscan', -⟩ := getREntry_ptr hptr'
        have hdestTable : (destLookup cfg env f st).table = st.table := htable
        rw [hdestTable, hips, hscan] at hscan'
        obtain rfl := Option.some.inj hscan'
        have hsame : (learnedRoute cfg env intfN addr f st).entry = a := by
          rw [learnedRoute, learnSource_ptr_some hptr']
        have hentryAt := hlearned.entry
        rw [hsame] at hentryAt
        simp [hips, hentry', hentryAt]
      · have hne : b ≠ a := by
          rintro rfl
          have hat' := hsrc.table.entryAt (a := b) (e := e') (by simp)
          obtain rfl := Option.some.inj (hat.symm.trans hat')
          exact hips (hkey'.symm.trans hkey)
        have hkept : (learnedRoute cfg env intfN addr f st).table.entryAt a =
            (srcLookup cfg env f st).table.entryAt a := by
          rw [learnedRoute, learnSource_ptr_some hptr']
          exact entryAt_check hne
        simp [hkept, hat, hips]

end Lookups

/-- The operations on the table in memory do what those on the list do. -/
def heapTables : TableSim Table (List REntry) where
  Rel := Listed
  broadid := by
    rintro t _ ip bid ⟨l, ht, rfl⟩
    exact isBroadidGreater_heap ht bid
  lookup := by
    rintro t _ staleParam now ip flag ⟨l, ht, rfl⟩
    obtain ⟨l', hfound⟩ := getREntry_heap ht staleParam now ip flag
    exact ⟨⟨l', hfound.table, hfound.entries⟩, hfound.deleted,
      hfound.deref.trans (bind_entryAt_list _ _).symm⟩
  learn := by
    intro Queue Queue' st st' cfg env intfN addr f h
    obtain ⟨l, hlearned⟩ := learnedRoute_heap h cfg env intfN addr f
    exact ⟨⟨l, hlearned.table, hlearned.entries⟩, hlearned.flag, hlearned.entry⟩
  dest := by
    intro Queue Queue' st st' cfg env intfN addr f h
    exact derefDest_heap h

/-! ## Runs -/

/-- The handler call for an event. -/
def heapOutcomeOf (cfg : Config) (st : NodeHeap) : NodeEvent → Outcome OdrFrame Table
  | .recv env intfN addr recvBuf => handleEthernetMsg cfg env intfN addr recvBuf st
  | .request env sparams => handlePeerMsg cfg env sparams st

def heapStep (cfg : Config) (st : NodeHeap) (ev : NodeEvent) : Option NodeHeap :=
  some (heapOutcomeOf cfg st ev).node

section Runs

variable {cfg : Config} {st : NodeHeap} {s : NodeState} {h : List (NodeHeap × NodeEvent)}

/-- A call in memory has the effects of the call in the list model, and leaves a state
that stands for the one that call leaves. -/
theorem outcome_heap (cfg : Config) (ev : NodeEvent) (hst : StateSim Listed Eq st s) :
    OutcomeSim Eq Listed Eq (heapOutcomeOf cfg st ev) (nodeOutcome cfg s ev) := by
  cases ev with
  | recv env intfN addr recvBuf =>
      exact handleEthernetMsg_sim (.refl _) heapTables .refl hst cfg env intfN addr rfl
  | request env sparams =>
      exact handlePeerMsg_sim (.refl _) heapTables .refl hst cfg env sparams fun _ _ => rfl

theorem stateSim_initial : StateSim Listed Eq NodeHeap.initial .initial :=
  ⟨⟨[], ⟨.nil none, .nil⟩, rfl⟩, rfl, rfl, rfl, rfl⟩

/-- Every run in memory stands for a run of the list model with the same events. -/
theorem stateSim_of_trace (ht : Trace (heapStep cfg) .initial h st) :
    ∃ g s, Trace (nodeStep cfg) .initial g s ∧ g.map Prod.snd = h.map Prod.snd ∧
      StateSim Listed Eq st s := by
  refine ht.simulate stateSim_initial fun st s ev st' hst hs => ?_
  obtain rfl := Option.some.inj hs
  exact ⟨_, rfl, (outcome_heap cfg ev hst).node⟩

end Runs

/-! ## The table as a finite map -/

/-- A list from `routing_table_head` in which no two entries have the same address. -/
structure WellFormed (t : Table) (l : List (Nat × REntry)) : Prop extends TableAt t l where
  unique : UniqueRoutes (l.map Prod.snd)

/-- The map from addresses to entries that a list of entries stands for. -/
def routeMap (l : List (Nat × REntry)) : Ip → Option REntry := route (l.map Prod.snd)

/-- `get_r_entry` looks up, or deletes what is expired or asked to be rediscovered. -/
structure GetsRoute (t : Table) (l : List (Nat × REntry)) (staleParam now : Int) (ip : Ip)
    (flag : Int) : Prop where
  found : ∀ x ∈ l, x.2.destip = ip → now - x.2.timestamp < staleParam → flag ≠ 1 →
    RouteHeap.getREntry staleParam now ip flag t =
      { entry := some x.1, table := t, deleted := false }
  gone : (∀ x ∈ l, x.2.destip = ip → now - x.2.timestamp ≥ staleParam ∨ flag = 1) →
    (RouteHeap.getREntry staleParam now ip flag t).entry = none ∧
      WellFormed (RouteHeap.getREntry staleParam now ip flag t).table
        (l.filter fun x => decide (x.2.destip ≠ ip)) ∧
      routeMap (l.filter fun x => decide (x.2.destip ≠ ip)) =
        Function.update (routeMap l) ip none

/-- `insert_r_entry` adds an entry for an address that has none. -/
def InsertsRoute (t : Table) (l : List (Nat × REntry)) (f : OdrFrame) (intfN : Int) (mac : Mac)
    (now : Int) : Prop :=
  routeMap l f.srcIp = none →
    let r := RouteHeap.insertREntry f intfN mac now t
    let l' := (r.1, updateREntry f intfN mac now) :: l
    WellFormed r.2 l' ∧
      routeMap l' = Function.update (routeMap l) f.srcIp (some (updateREntry f intfN mac now))

/-- `check_r_entry` rewrites the entry it is given if the frame is newer or as good. -/
structure ChecksRoute (t : Table) (l : List (Nat × REntry)) (f : OdrFrame) (intfN : Int)
    (mac : Mac) (now : Int) : Prop where
  updated : ∀ x ∈ l, x.2.destip = f.srcIp → acceptsUpdate f x.2 = true →
    (RouteHeap.checkREntry f x.1 intfN mac now t).1 = true ∧
      let l' := l.map fun y => if y.1 = x.1 then (y.1, updateREntry f intfN mac now) else y
      WellFormed (RouteHeap.checkREntry f x.1 intfN mac now t).2 l' ∧
        routeMap l' = Function.update (routeMap l) f.srcIp (some (updateREntry f intfN mac now))
  kept : ∀ x ∈ l, x.2.destip = f.srcIp → acceptsUpdate f x.2 = false →
    RouteHeap.checkREntry f x.1 intfN mac now t = (false, t)

section Map

variable {t : Table} {l : List (Nat × REntry)} {staleParam now : Int} {ip : Ip} {flag : Int}
  {f : OdrFrame} {intfN : Int} {mac : Mac}

theorem WellFormed.keys (hw : WellFormed t l) : (l.map fun x => x.2.destip).Nodup := by
  have := hw.unique
  rwa [UniqueRoutes, List.map_map] at this

theorem WellFormed.eq_of_destip (hw : WellFormed t l) {x y : Nat × REntry} (hx : x ∈ l)
    (hy : y ∈ l) (h : x.2.destip = y.2.destip) : x = y :=
  List.inj_on_of_nodup_map hw.keys hx hy h

/-- No entry before the one for `ip` is for `ip`. -/
theorem WellFormed.destip_ne_before {l₁ l₂ : List (Nat × REntry)} {x : Nat × REntry}
    (hw : WellFormed t (l₁ ++ x :: l₂)) (hkey : x.2.destip = ip) :
    ∀ e ∈ l₁.map Prod.snd, e.destip ≠ ip := by
  have hnd := hw.keys
  rw [List.map_append, List.map_cons] at hnd
  refine List.forall_mem_map.mpr fun y hy heq => ?_
  exact (List.nodup_append.mp hnd).2.2 _ (List.mem_map.mpr ⟨y, hy, heq⟩) _ (by simp [hkey]) rfl

theorem map_snd_filter_destip (hw : WellFormed t l) (ip : Ip) :
    (l.filter fun x => decide (x.2.destip ≠ ip)).map Prod.snd =
      eraseKey REntry.destip ip (l.map Prod.snd) := by
  rw [eraseKey_eq_filter hw.unique, List.filter_map]
  rfl

theorem routeMap_filter (hw : WellFormed t l) (ip : Ip) :
    routeMap (l.filter fun x => decide (x.2.destip ≠ ip)) =
      Function.update (routeMap l) ip none := by
  funext ip'
  rw [routeMap, map_snd_filter_destip hw]
  by_cases hip : ip' = ip
  · subst hip
    rw [Function.update_self]
    exact findKey_eraseKey_self hw.unique
  · rw [Function.update_of_ne hip]
    exact findKey_eraseKey_of_ne (Ne.symm hip)

/-- Wherever the first entry for the address stood, the others are left. -/
theorem WellFormed.filter_of_gone (hw : WellFormed t l)
    (hgone : ∀ x ∈ l, x.2.destip = ip → now - x.2.timestamp ≥ staleParam ∨ flag = 1) :
    (RouteHeap.getREntry staleParam now ip flag t).entry = none ∧
      TableAt (RouteHeap.getREntry staleParam now ip flag t).table
        (l.filter fun x => decide (x.2.destip ≠ ip)) := by
  rcases getREntry_heap_cases hw.toTableAt staleParam now ip flag with
    ⟨hnone, hget⟩ | ⟨l₁, a, e, l₂, rfl, hbefore, hkey, ⟨-, hget⟩ | ⟨hkeep, -⟩⟩
  · have hall : l.filter (fun x => decide (x.2.destip ≠ ip)) = l :=
      List.filter_eq_self.mpr fun x hx => by simpa using hnone x hx
    rw [hget, hall]
    exact ⟨rfl, hw.toTableAt⟩
  · have hsplit := eraseKey_eq_filter (k := ip) hw.keys
    rw [eraseKey_append hbefore hkey] at hsplit
    rw [hget, ← hsplit]
    exact ⟨rfl, hw.toTableAt.unlink⟩
  · have hdel : now - e.timestamp ≥ staleParam ∨ flag = 1 := hgone (a, e) (by simp) hkey
    omega

theorem WellFormed.getsRoute (hw : WellFormed t l) (staleParam now : Int) (ip : Ip)
    (flag : Int) : GetsRoute t l staleParam now ip flag := by
  constructor
  · rintro ⟨a, e⟩ hx hkey hfresh hflag
    rcases getREntry_heap_cases hw.toTableAt staleParam now ip flag with
      ⟨hnone, -⟩ | ⟨l₁, a', e', l₂, rfl, -, hkey', hcase⟩
    · exact absurd hkey (hnone _ hx)
    · have hsame := hw.eq_of_destip (y := (a', e')) hx (by simp) (hkey.trans hkey'.symm)
      obtain ⟨rfl, rfl⟩ := Prod.mk.inj hsame
      rcases hcase with ⟨hdel, -⟩ | ⟨-, hget⟩
      · have hfresh : now - e.timestamp < staleParam := hfresh
        omega
      · exact hget
  · intro hgone
    obtain ⟨hptr, ht⟩ := hw.filter_of_gone hgone
    refine ⟨hptr, ⟨ht, ?_⟩, routeMap_filter hw ip⟩
    rw [map_snd_filter_destip hw]
    exact nodup_eraseKey hw.unique

theorem WellFormed.insertsRoute (hw : WellFormed t l) (f : OdrFrame) (intfN : Int) (mac : Mac)
    (now : Int) : InsertsRoute t l f intfN mac now := by
  intro habsent
  have hptr : (RouteHeap.insertREntry f intfN mac now t).1 = t.heap.length := by
    rw [insertREntry_eq]
  simp only [hptr]
  refine ⟨⟨hw.insert f intfN mac now, List.nodup_cons.mpr ⟨?_, hw.unique⟩⟩, ?_⟩
  · intro hmem
    obtain ⟨e, he, hkey⟩ := List.mem_map.mp hmem
    exact findKey_eq_none_iff.mp habsent e he hkey
  · funext ip
    by_cases hip : ip = f.srcIp
    · subst hip
      rw [Function.update_self]
      exact findKey_cons_self (a := updateREntry f intfN mac now)
    · rw [Function.update_of_ne hip]
      exact findKey_cons_of_ne (Ne.symm hip)

theorem WellFormed.checksRoute (hw : WellFormed t l) (f : OdrFrame) (intfN : Int) (mac : Mac)
    (now : Int) : ChecksRoute t l f intfN mac now := by
  constructor
  · intro x hx hkey hacc
    obtain ⟨a, e⟩ := x
    have hcheck : RouteHeap.checkREntry f a intfN mac now t =
        (true, { t with heap := setVal a (updateREntry f intfN mac now) t.heap }) := by
      simp [RouteHeap.checkREntry, hw.entryAt hx, hacc]
    obtain ⟨l₁, l₂, rfl⟩ := List.append_of_mem hx
    have hbefore := hw.destip_ne_before hkey
    have hreplace : replaceKey REntry.destip f.srcIp (updateREntry f intfN mac now)
        ((l₁ ++ (a, e) :: l₂).map Prod.snd) =
        (l₁ ++ (a, updateREntry f intfN mac now) :: l₂).map Prod.snd := by
      simp only [List.map_append, List.map_cons]
      exact replaceKey_append hbefore hkey
    rw [hcheck]
    simp only [map_update_append hw.addrs, true_and]
    refine ⟨⟨hw.toTableAt.setVal _, ?_⟩, ?_⟩
    · rw [UniqueRoutes, ← hreplace, map_key_replaceKey updateREntry_destip]
      exact hw.unique
    · funext ip
      rw [routeMap, ← hreplace]
      by_cases hip : ip = f.srcIp
      · subst hip
        rw [Function.update_self]
        refine findKey_replaceKey_self (a := e) rfl ?_
        rw [List.map_append, List.map_cons]
        exact findKey_append hbefore hkey
      · rw [Function.update_of_ne hip]
        exact findKey_replaceKey_of_ne rfl (Ne.symm hip)
  · intro x hx _ hacc
    simp [RouteHeap.checkREntry, hw.entryAt hx, hacc]

/-- After a lookup for `ip` the table is well formed, and the pointer is null exactly if no
entry for `ip` is left. -/
theorem WellFormed.lookup (hw : WellFormed t l) (staleParam now : Int) (ip : Ip) (flag : Int) :
    ∃ l', WellFormed (RouteHeap.getREntry staleParam now ip flag t).table l' ∧
      ((RouteHeap.getREntry staleParam now ip flag t).entry = none → routeMap l' ip = none) ∧
      ∀ a, (RouteHeap.getREntry staleParam now ip flag t).entry = some a →
        ∃ e, (a, e) ∈ l' ∧ e.destip = ip := by
  have hget := hw.getsRoute staleParam now ip flag
  by_cases hgone : ∀ x ∈ l, x.2.destip = ip → now - x.2.timestamp ≥ staleParam ∨ flag = 1
  · obtain ⟨hptr, hw', hmap⟩ := hget.gone hgone
    refine ⟨_, hw', fun _ => ?_, fun a ha => ?_⟩
    · rw [hmap, Function.update_self]
    · rw [hptr] at ha
      exact absurd ha (by simp)
  · push Not at hgone
    obtain ⟨x, hx, hkey, hfresh, hflag⟩ := hgone
    rw [hget.found x hx hkey hfresh hflag]
    refine ⟨l, hw, fun hnone => absurd hnone (by simp), fun a ha => ?_⟩
    obtain rfl := Option.some.inj ha
    exact ⟨x.2, hx, hkey⟩

end Map

/-- When `handle_ethernet_msg` comes to `insert_r_entry` the table is well formed without
an entry for the source, and when it comes to `check_r_entry` it passes the entry of the
source. -/
def CallsInOrder (cfg : Config) (st : NodeHeap) : Prop :=
  ∀ env f, ∃ l, WellFormed (srcLookup cfg env f st).table l ∧
    ((srcLookup cfg env f st).entry = none → routeMap l f.srcIp = none) ∧
    ∀ a, (srcLookup cfg env f st).entry = some a → ∃ e, (a, e) ∈ l ∧ e.destip = f.srcIp

theorem WellFormed.callsInOrder {st : NodeHeap} {l : List (Nat × REntry)}
    (hw : WellFormed st.table l) (cfg : Config) : CallsInOrder cfg st := by
  intro env f
  obtain ⟨l', hw', -⟩ := hw.lookup cfg.staleParam env.destTime f.destIp f.routeDiscFlag
  exact hw'.lookup cfg.staleParam env.srcTime f.srcIp 0

theorem wellFormed_of_trace {cfg : Config} {st : NodeHeap} {h : List (NodeHeap × NodeEvent)}
    (ht : Trace (heapStep cfg) .initial h st) : ∃ l, WellFormed st.table l := by
  obtain ⟨g, s, hs, -, hst⟩ := stateSim_of_trace ht
  obtain ⟨l, hl, hentries⟩ := hst.table
  exact ⟨l, hl, hentries ▸ uniqueRoutes_of_nodeTrace hs⟩

/-- After any sequence of handler calls the routing table is a doubly linked list, `prev`
the inverse of `next` and null at the head, with one entry per address; and on such a
list the three operations are those of a finite map. -/
theorem routing_table_is_map {cfg : Config} {st : NodeHeap} {h : List (NodeHeap × NodeEvent)}
    (ht : Trace (heapStep cfg) .initial h st) :
    (∃ l, WellFormed st.table l ∧
      (∀ a ∈ l.map Prod.fst, ∀ b ∈ l.map Prod.fst,
        nextOf a st.table.heap = some b ↔ prevOf b st.table.heap = some a) ∧
      ∀ a, st.table.head = some a → prevOf a st.table.heap = none) ∧
    CallsInOrder cfg st ∧
    ∀ t l, WellFormed t l →
      (∀ staleParam now ip flag, GetsRoute t l staleParam now ip flag) ∧
      (∀ f intfN mac now, InsertsRoute t l f intfN mac now) ∧
      ∀ f intfN mac now, ChecksRoute t l f intfN mac now := by
  obtain ⟨l, hw⟩ := wellFormed_of_trace ht
  refine ⟨⟨l, hw, fun a ha b hb => hw.chain.nextOf_iff_prevOf hw.addrs ha hb, ?_⟩,
    hw.callsInOrder cfg, fun t l hw => ⟨hw.getsRoute, hw.insertsRoute, hw.checksRoute⟩⟩
  intro a ha
  rw [hw.chain.start_eq, List.head?_eq_getElem?] at ha
  exact hw.chain.prevOf_eq ha

/-- A notification from `src` for `dest`, with the given id and discovery flag. -/
def asentAt (now bid flag : Int) (src dest : Ip) : NodeEvent :=
  .recv (.reliable now) 3 0
    (constructOdr FrameType.asent.toInt bid 0 0 flag servPort servPort dest src "")

/-- Three entries are learned, and the middle one is unlinked by a frame for its address
with the discovery flag. -/
theorem middle_entry_unlinked :
    ∃ h st, Trace (heapStep (lineNet.cfg 1)) .initial h st ∧
      st.table.heap.length = 3 ∧
      ∃ l, WellFormed st.table l ∧ l.map Prod.fst = [2, 0] := by
  obtain ⟨h, st, ht, hp⟩ := Trace.exists_of_exec (heapStep (lineNet.cfg 1)) .initial
    [asentAt 0 11 0 "10.0.0.1" "10.0.0.9", asentAt 0 11 0 "10.0.0.4" "10.0.0.9",
      asentAt 0 11 0 "10.0.0.5" "10.0.0.9", asentAt 1 12 1 "10.0.0.5" "10.0.0.4"]
    (fun _ st => decide (st.table.heap.length = 3 ∧ st.table.head = some 2 ∧
      nextOf 2 st.table.heap = some 0 ∧ nextOf 0 st.table.heap = none)) (by decide +kernel)
  obtain ⟨hlen, hhead, hnext, hlast⟩ := of_decide_eq_true hp
  obtain ⟨⟨l, hw, -⟩, -⟩ := routing_table_is_map ht
  refine ⟨h, st, ht, hlen, l, hw, ?_⟩
  have h0 : (l.map Prod.fst)[0]? = some 2 := by
    rw [← List.head?_eq_getElem?, ← hw.chain.start_eq, hhead]
  have h1 : (l.map Prod.fst)[1]? = some 0 := by rw [← hw.chain.nextOf_eq h0, hnext]
  have h2 : (l.map Prod.fst)[2]? = none := by rw [← hw.chain.nextOf_eq h1, hlast]
  refine List.ext_getElem? fun i => ?_
  match i with
  | 0 => exact h0
  | 1 => exact h1
  | i + 2 =>
      have hlen := List.getElem?_eq_none_iff.mp h2
      exact List.getElem?_eq_none (by omega)

end OnDemandRouting.Proofs
