import OnDemandRouting.Lib.Related
import OnDemandRouting.Lib.Trace
import OnDemandRouting.Model.PendingHeap
import OnDemandRouting.Proofs.Representation

/-!
# The pointers of the pending queue

The queue in memory against the list it is for.  Every `prev` but that of the head
points back; the head's may point at an entry that has been removed, and is not read
before the next insertion resets it.
-/

namespace OnDemandRouting.Proofs

open OnDemandRouting.Lib
open OnDemandRouting.Model
open OnDemandRouting.Model.PendingHeap (Queue Op)

/-- What the queue is for: a new frame goes in front, and a lookup takes the first frame
for its address out, or finds none and changes nothing. -/
def queueSpec (queue : List PendingMsg) : Op → List PendingMsg × Option OdrFrame
  | .insert odrframe ip => ({ destip := ip, odrframe := odrframe } :: queue, none)
  | .lookup ip =>
      (queue.eraseP fun m => decide (m.destip = ip),
        (queue.find? fun m => decide (m.destip = ip)).map PendingMsg.odrframe)

variable {Frame : Type}

/-- The list from `pending_queue_head` goes through the addresses and entries of `l`, with
any `prev` at the head. -/
structure QueueAt (q : Queue Frame) (l : List (Nat × PendingMsg Frame)) : Prop where
  chain : ∃ p, Chain q.heap p q.head l
  addrs : (l.map Prod.fst).Nodup

section Edits

variable {q : Queue Frame} {l l₁ l₂ : List (Nat × PendingMsg Frame)} {a : Nat}
  {m : PendingMsg Frame}

theorem insertPendingQueue_eq (odrframe : Frame) (ip : Ip) (q : Queue Frame) :
    PendingHeap.insertPendingQueue odrframe ip q =
      { heap := setNext (some q.heap.length) q.head
          (setPrev q.head (some q.heap.length)
            (alloc { destip := ip, odrframe := odrframe } q.heap))
        head := some q.heap.length } := by
  rw [PendingHeap.insertPendingQueue]
  cases q.head with
  | some head =>
      simp only
      rw [setNext_setPrev_comm]
  | none =>
      simp only [setPrev, setNext_alloc_self]

theorem QueueAt.insert (hq : QueueAt q l) (odrframe : Frame) (ip : Ip) :
    QueueAt (PendingHeap.insertPendingQueue odrframe ip q)
      ((q.heap.length, { destip := ip, odrframe := odrframe }) :: l) := by
  obtain ⟨p, hc⟩ := hq.chain
  obtain ⟨hchain, hnd⟩ := hc.push hq.addrs { destip := ip, odrframe := odrframe }
  rw [insertPendingQueue_eq]
  exact ⟨⟨none, hchain⟩, hnd⟩

/-- Removal at the head, which leaves the `prev` of the next entry as it is. -/
theorem QueueAt.remove_head (hq : QueueAt q ((a, m) :: l)) :
    QueueAt { heap := setNext (some a) none q.heap, head := nextOf a q.heap } l := by
  obtain ⟨heap, head⟩ := q
  obtain ⟨p, hc⟩ := hq.chain
  obtain ⟨hnot, hnd⟩ := List.nodup_cons.mp hq.addrs
  cases hc with
  | cons hcell htail =>
      refine ⟨⟨some a, ?_⟩, hnd⟩
      simp only [nextOf, hcell, Option.bind_some]
      exact htail.setNext_of_notMem hnot

/-- Removal behind the head. -/
theorem QueueAt.remove_inner (hq : QueueAt q (l₁ ++ (a, m) :: l₂)) (hl₁ : l₁ ≠ []) :
    QueueAt { q with heap := unlinkCell a q.heap } (l₁ ++ l₂) := by
  obtain ⟨p, hc⟩ := hq.chain
  have hchain := hc.unlink hq.addrs fun hnil => absurd hnil hl₁
  rw [if_neg hl₁] at hchain
  exact ⟨⟨p, hchain⟩,
    hq.addrs.sublist (((List.sublist_cons_self _ _).append_left l₁).map Prod.fst)⟩

theorem QueueAt.head_eq_some_iff (hq : QueueAt q (l₁ ++ (a, m) :: l₂)) :
    q.head = some a ↔ l₁ = [] := by
  obtain ⟨p, hc⟩ := hq.chain
  exact hc.start_eq_some_iff hq.addrs

/-- A search stops at the first frame for the address, and taking that frame out leaves
the others in order. -/
theorem QueueAt.lookup (hq : QueueAt q l) (ip : Ip) :
    (∃ l', QueueAt (PendingHeap.lookupPendingQueue ip q).2 l' ∧
      l'.map Prod.snd = (l.map Prod.snd).eraseP fun m => decide (m.destip = ip)) ∧
    (PendingHeap.lookupPendingQueue ip q).1 =
      ((l.map Prod.snd).find? fun m => decide (m.destip = ip)).map PendingMsg.odrframe := by
  obtain ⟨p, hc⟩ := hq.chain
  have hsearch := hc.search_eq (fun m => decide (m.destip = ip))
    (Nat.lt_succ_of_le (hc.length_le hq.addrs))
  rw [PendingHeap.lookupPendingQueue, hsearch, List.find?_map, Option.map_map]
  cases hfind : l.find? fun x => decide (x.2.destip = ip) with
  | none =>
      have hnone : ∀ m ∈ l.map Prod.snd, ¬ decide (m.destip = ip) = true :=
        List.forall_mem_map.mpr fun x hx => List.find?_eq_none.mp hfind x hx
      refine ⟨⟨l, hq, (List.eraseP_of_forall_not hnone).symm⟩, ?_⟩
      exact (congrArg (Option.map _) hfind).symm
  | some x =>
      obtain ⟨hkey, l₁, l₂, rfl, hbefore⟩ := List.find?_eq_some_iff_append.mp hfind
      obtain ⟨a, m⟩ := x
      obtain ⟨n, hcell, -⟩ := hc.split
      have hbefore' : ∀ m ∈ l₁.map Prod.snd, m.destip ≠ ip :=
        List.forall_mem_map.mpr fun x hx => by simpa using hbefore x hx
      have herase : (l₁ ++ l₂).map Prod.snd =
          ((l₁ ++ (a, m) :: l₂).map Prod.snd).eraseP fun m => decide (m.destip = ip) := by
        rw [List.map_append, List.map_append, List.map_cons, ← eraseKey_eq_eraseP,
          eraseKey_append hbefore' (of_decide_eq_true hkey)]
      have hfound := congrArg (Option.map (PendingMsg.odrframe ∘ Prod.snd)) hfind
      simp only [Option.map_some, hcell, hq.head_eq_some_iff]
      split_ifs with hl₁
      · subst hl₁
        exact ⟨⟨l₂, hq.remove_head, herase⟩, hfound.symm⟩
      · exact ⟨⟨l₁ ++ l₂, hq.remove_inner hl₁, herase⟩, hfound.symm⟩

end Edits

/-! ## Sequences of calls -/

/-- The queue in memory holds the frames of the list. -/
def Holds (q : Queue) (queue : List PendingMsg) : Prop :=
  ∃ l, QueueAt q l ∧ l.map Prod.snd = queue

theorem Holds.call {q : Queue} {queue : List PendingMsg} (hq : Holds q queue) (op : Op) :
    Holds (q.call op).1 (queueSpec queue op).1 ∧ (q.call op).2 = (queueSpec queue op).2 := by
  obtain ⟨l, hl, rfl⟩ := hq
  cases op with
  | insert odrframe ip => exact ⟨⟨_, hl.insert odrframe ip, rfl⟩, rfl⟩
  | lookup ip => exact hl.lookup ip

theorem holds_initial : Holds .initial [] := ⟨[], ⟨⟨none, .nil none⟩, .nil⟩, rfl⟩

/-- Under every sequence of insertions and lookups the entries from `pending_queue_head`
are a finite list without repeated addresses, its frames are those of the abstract queue,
and every lookup returns what it returns there. -/
theorem pending_queue_refines_list (ops : List Op) :
    (∃ l, QueueAt (execOut Queue.call .initial ops).1 l ∧
      l.map Prod.snd = (execOut queueSpec [] ops).1) ∧
    (execOut Queue.call .initial ops).2 = (execOut queueSpec [] ops).2 :=
  execOut_refines (fun _ _ op hq => hq.call op) holds_initial ops

/-! ## The queue of the node model -/

/-- The node model's functions on the queue are those of the abstract queue. -/
theorem queueSpec_eq (queue : List PendingMsg) (op : Op) :
    queueSpec queue op =
      match op with
      | .insert odrframe ip => (insertPendingQueue odrframe ip queue, none)
      | .lookup ip =>
          match lookupPendingQueue ip queue with
          | none => (queue, none)
          | some (frame, rest) => (rest, some frame) := by
  cases op with
  | insert odrframe ip => rfl
  | lookup ip =>
      simp only [queueSpec, lookupPendingQueue]
      cases hfind : findKey PendingMsg.destip ip queue with
      | none =>
          rw [← eraseKey_eq_eraseP, eraseKey_of_findKey_none hfind, ← findKey_eq_find?, hfind]
          rfl
      | some m =>
          rw [← eraseKey_eq_eraseP, ← findKey_eq_find?, hfind]
          rfl

/-- An entry of the queue beside one of the node model. -/
structure PendingSim (Host : Frame → OdrFrame → Prop) (m : PendingMsg Frame) (m' : PendingMsg) :
    Prop where
  destip : m.destip = m'.destip
  odrframe : Host m.odrframe m'.odrframe

/-- The queue in memory holds frames that stand for those of the list. -/
def HoldsSim (Host : Frame → OdrFrame → Prop) (q : Queue Frame) (queue : List PendingMsg) : Prop :=
  ∃ l, QueueAt q l ∧ List.Forall₂ (PendingSim Host) (l.map Prod.snd) queue

/-- The operations on the queue in memory do what those on the list do, whatever stands for the
frames. -/
def pendingQueues (Host : Frame → OdrFrame → Prop) :
    QueueSim Host (Queue Frame) (List PendingMsg) where
  Rel := HoldsSim Host
  insert := by
    rintro f f' q queue ip hf ⟨l, hq, hl⟩
    exact ⟨_, hq.insert f ip, .cons ⟨rfl, hf⟩ hl⟩
  lookup := by
    rintro q queue ip ⟨l, hq, hl⟩
    obtain ⟨⟨l', hq', hl'⟩, hframe⟩ := hq.lookup ip
    have hkey : ∀ m m', PendingSim Host m m' → m.destip = m'.destip := fun _ _ h => h.destip
    have hrest := forall₂_eraseKey hkey hl ip
    rw [eraseKey_eq_eraseP, ← hl'] at hrest
    have hfind := rel_findKey hkey hl ip
    rw [← findKey_eq_find?] at hframe
    simp only [QueueOps.lookupPendingQueue, hframe, lookupPendingQueue]
    generalize findKey _ ip (l.map Prod.snd) = r, findKey PendingMsg.destip ip queue = r' at hfind
    cases hfind with
    | none => exact .none
    | some hm => exact .some ⟨hm.odrframe, l', hq', hrest⟩

end OnDemandRouting.Proofs
