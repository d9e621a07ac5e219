import OnDemandRouting.Lib.LinkedList
import OnDemandRouting.Model.Node

/-!
# The pending queue in memory

`insert_pending_queue` and `lookup_pending_queue` with the pointers of `pending_msgs_t`.
When the head is removed, the new head's `prev` is not reset and goes on pointing at the
removed entry.
-/

namespace OnDemandRouting.Model.PendingHeap

open OnDemandRouting.Lib

/-- The entries in memory and `pending_queue_head`. -/
structure Queue (Frame : Type := OdrFrame) where
  heap : Heap (PendingMsg Frame)
  head : Option Nat

variable {Frame : Type}

/-- The queue before the first entry. -/
def Queue.initial : Queue Frame where
  heap := []
  head := none

/-- `insert_pending_queue`. -/
def insertPendingQueue (odrframe : Frame) (ip : Ip) (q : Queue Frame) : Queue Frame :=
  let entry := q.heap.length
  let heap := alloc { destip := ip, odrframe := odrframe } q.heap
  match q.head with
  | none => { heap := heap, head := some entry }
  | some head =>
      let heap := setNext (some entry) (some head) heap
      let heap := setPrev (some head) (some entry) heap
      { heap := heap, head := some entry }

/-- `lookup_pending_queue`: the frame it returns, and the queue.  The loop is over the
list from the head, which is no longer than the memory. -/
def lookupPendingQueue (destip : Ip) (q : Queue Frame) : Option Frame × Queue Frame :=
  match search q.heap (fun m => decide (m.destip = destip)) (q.heap.length + 1) q.head with
  | none => (none, q)
  | some curr =>
      let frame := q.heap[curr]?.map fun c => c.val.odrframe
      if q.head = some curr then
        (frame, { heap := setNext (some curr) none q.heap, head := nextOf curr q.heap })
      else (frame, { q with heap := unlinkCell curr q.heap })

/-- The queue as the handlers use it; without a frame to return, a lookup leaves it. -/
instance : QueueOps (Queue Frame) Frame where
  insertPendingQueue := insertPendingQueue
  lookupPendingQueue ip q :=
    let r := lookupPendingQueue ip q
    r.1.map fun frame => (frame, r.2)

/-- A call of one of the two functions. -/
inductive Op
  | insert (odrframe : OdrFrame) (ip : Ip)
  | lookup (ip : Ip)

/-- The queue after a call, and the frame the call returns. -/
def Queue.call (q : Queue) : Op → Queue × Option OdrFrame
  | .insert odrframe ip => (insertPendingQueue odrframe ip q, none)
  | .lookup ip =>
      let r := lookupPendingQueue ip q
      (r.2, r.1)

end OnDemandRouting.Model.PendingHeap
