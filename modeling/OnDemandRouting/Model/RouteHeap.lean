import OnDemandRouting.Lib.LinkedList
import OnDemandRouting.Model.Node

/-!
# The routing table in memory

The functions on `routing_table_head` with the pointers of `r_entry_t`: what a lookup
returns is the address of an entry, an update writes through such an address, and an
entry that is deleted is unlinked and stays in memory.  On top of them the handlers read the
pointers `dest_r_entry` and `src_r_entry` when the source reads them.
-/

namespace OnDemandRouting.Model.RouteHeap

open OnDemandRouting.Lib

/-- The entries in memory and `routing_table_head`. -/
structure Table where
  heap : Heap REntry
  head : Option Nat

/-- The table before the first entry. -/
def Table.initial : Table where
  heap := []
  head := none

/-- The entry a pointer points at. -/
def Table.entryAt (t : Table) (a : Nat) : Option REntry := t.heap[a]?.map Cell.val

/-- The loop over the table up to the first entry that `q` accepts.  A list in memory is
no longer than the memory, which bounds the loop. -/
def Table.scan (t : Table) (q : REntry → Bool) : Option Nat :=
  search t.heap q (t.heap.length + 1) t.head

/-- Unlink the entry at `curr`. -/
def Table.unlink (t : Table) (curr : Nat) : Table where
  heap := unlinkCell curr t.heap
  head := if t.head = some curr then nextOf curr t.heap else t.head

/-- `get_r_entry`. -/
def getREntry (staleParam now : Int) (destIp : Ip) (routeDiscFlag : Int) (t : Table) :
    Lookup Table Nat :=
  match t.scan fun e => decide (e.destip = destIp) with
  | none => { entry := none, table := t, deleted := false }
  | some curr =>
      if (t.entryAt curr).any (fun e => decide (now - e.timestamp ≥ staleParam)) ||
          decide (routeDiscFlag = 1) then
        { entry := none, table := t.unlink curr, deleted := true }
      else { entry := some curr, table := t, deleted := false }

/-- `insert_r_entry`: the pointer it stores through its argument, and the table. -/
def insertREntry (recvd : OdrFrame) (intfN : Int) (nextHop : Mac) (now : Int) (t : Table) :
    Nat × Table :=
  let entry := t.heap.length
  let heap := alloc (updateREntry recvd intfN nextHop now) t.heap
  match t.head with
  | none => (entry, { heap := heap, head := some entry })
  | some head =>
      let heap := setPrev (some head) (some entry) heap
      let heap := setNext (some entry) (some head) heap
      (entry, { heap := heap, head := some entry })

/-- `check_r_entry`: its return value, and the table after it wrote through its pointer. -/
def checkREntry (recvd : OdrFrame) (entry : Nat) (intfN : Int) (nextHop : Mac) (now : Int)
    (t : Table) : Bool × Table :=
  if (t.entryAt entry).any (acceptsUpdate recvd) then
    (true, { t with heap := setVal entry (updateREntry recvd intfN nextHop now) t.heap })
  else (false, t)

/-- `is_broadid_greater`. -/
def isBroadidGreater (srcip : Ip) (recvdBroadId : Int) (t : Table) : Int :=
  match t.scan fun e => decide (e.destip = srcip ∧ e.broadcastId ≥ recvdBroadId) with
  | some _ => -1
  | none => 1

/-- `remove_r_entry`.  The test is `strcmp` without a comparison to 0, so it is the first
entry for another address that is taken out. -/
def removeREntry (ip : Ip) (t : Table) : Table :=
  match t.scan fun e => decide (e.destip ≠ ip) with
  | none => t
  | some curr => t.unlink curr

/-- The table as the handlers use it.  `dest_r_entry` is read after the source's route was
learned, from whatever its cell then holds. -/
instance : TableOps Table Nat where
  getREntry := getREntry
  isBroadidGreater := isBroadidGreater
  insertREntry := insertREntry
  checkREntry recvd entry intfN nextHop now t :=
    let r := checkREntry recvd entry intfN nextHop now t
    (r.1, entry, r.2)
  entryAt := Table.entryAt
  rereadDest _ dest _ learned := dest.entry.bind learned.table.entryAt

/-- The globals of one daemon, with its table in memory. -/
abbrev NodeHeap := NodeState Table

/-- The state in which `main` enters its loop. -/
def NodeHeap.initial : NodeHeap := { NodeState.initial with table := .initial }

end OnDemandRouting.Model.RouteHeap
