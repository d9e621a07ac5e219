import OnDemandRouting.Lib.KeyedList
import OnDemandRouting.Model.Frame

/-!
# The routing table

The linked list `routing_table_head` as a list of entries in chain order, with
`update_r_entry`, `insert_r_entry`, `check_r_entry`, `get_r_entry` and
`is_broadid_greater`.  Clock readings are the `tv_sec` values `gettimeofday`
returns; the microseconds are only printed and are left out.

What the handlers do with a table is written over the operations they use, for a table in
memory as well.  Where memory has the address of an entry, the list has the entry itself.
-/

namespace OnDemandRouting.Model

open OnDemandRouting.Lib

/-- `r_entry_t` without its links. -/
structure REntry where
  destip : Ip
  nextHop : Mac
  ifNo : Int
  noHops : Int
  broadcastId : Int
  timestamp : Int
  deriving DecidableEq

/-- The entry the code finds for `ip`: the first one in the chain. -/
def route (table : List REntry) (ip : Ip) : Option REntry := findKey REntry.destip ip table

/-- `update_r_entry`: every field is rewritten from the received frame. -/
def updateREntry (recvBuf : OdrFrame) (intfN : Int) (nextHop : Mac) (now : Int) : REntry where
  destip := recvBuf.srcIp
  nextHop := nextHop
  ifNo := intfN
  noHops := recvBuf.hopCount + 1
  broadcastId := recvBuf.broadcastId
  timestamp := now

/-- `insert_r_entry`: the new entry becomes the head. -/
def insertREntry (recvd : OdrFrame) (intfN : Int) (nextHop : Mac) (now : Int)
    (table : List REntry) : List REntry :=
  updateREntry recvd intfN nextHop now :: table

/-- The two acceptance tests of `check_r_entry`: a newer broadcast id, or the
same id over no more hops. -/
def acceptsUpdate (recvd : OdrFrame) (entry : REntry) : Bool :=
  decide (entry.broadcastId < recvd.broadcastId) ||
    decide (recvd.broadcastId = entry.broadcastId ∧ recvd.hopCount + 1 ≤ entry.noHops)

/-- `check_r_entry`: its return value and the entry behind the pointer afterwards. -/
def checkREntry (recvd : OdrFrame) (entry : REntry) (intfN : Int) (nextHop : Mac)
    (now : Int) : Bool × REntry :=
  if acceptsUpdate recvd entry then (true, updateREntry recvd intfN nextHop now)
  else (false, entry)

/-- Result of `get_r_entry`: the pointer it stores through its argument (when it
returns 1), the table it leaves, and whether it unlinked an entry. -/
structure Lookup (Table : Type := List REntry) (Ptr : Type := REntry) where
  entry : Option Ptr
  table : Table
  deleted : Bool

/-- `get_r_entry`: the first match is unlinked when it is stale or the route
discovery flag is 1, and returned otherwise. -/
def getREntry (staleParam now : Int) (destIp : Ip) (routeDiscFlag : Int) :
    List REntry → Lookup
  | [] => { entry := none, table := [], deleted := false }
  | curr :: rest =>
      if curr.destip = destIp then
        if now - curr.timestamp ≥ staleParam ∨ routeDiscFlag = 1 then
          { entry := none, table := rest, deleted := true }
        else { entry := some curr, table := curr :: rest, deleted := false }
      else
        let r := getREntry staleParam now destIp routeDiscFlag rest
        { r with table := curr :: r.table }

/-- `is_broadid_greater`: `-1` as soon as an entry for `srcip` has an id not
below the received one. -/
def isBroadidGreater (srcip : Ip) (recvdBroadId : Int) : List REntry → Int
  | [] => 1
  | curr :: rest =>
      if curr.destip = srcip ∧ curr.broadcastId ≥ recvdBroadId then -1
      else isBroadidGreater srcip recvdBroadId rest

/-- Outcome of the `check_r_entry`-or-`insert_r_entry` choice every frame case
starts with: the flag, the pointer `src_r_entry`, and the table. -/
structure Learned (Table : Type := List REntry) (Ptr : Type := REntry) where
  flag : Bool
  entry : Ptr
  table : Table

/-- What `dest_r_entry` points at in a list once the route to the source of `f` is learned.
When the two addresses agree and both lookups succeed, the pointers are the same. -/
def rereadDest (f : OdrFrame) (dest src : Lookup) (learned : Learned) : Option REntry :=
  if f.srcIp = f.destIp ∧ dest.entry.isSome ∧ src.entry.isSome then some learned.entry
  else dest.entry

/-! ## What the daemon does with a table -/

/-- The operations of the daemon on its routing table, with `Ptr` for `r_entry_t *`. -/
class TableOps (Table : Type) (Ptr : outParam Type) where
  /-- `get_r_entry`. -/
  getREntry (staleParam now : Int) (destIp : Ip) (routeDiscFlag : Int) :
    Table → Lookup Table Ptr
  /-- `is_broadid_greater`. -/
  isBroadidGreater (srcip : Ip) (recvdBroadId : Int) : Table → Int
  /-- `insert_r_entry`: the pointer it stores through its argument, and the table. -/
  insertREntry (recvd : OdrFrame) (intfN : Int) (nextHop : Mac) (now : Int) :
    Table → Ptr × Table
  /-- `check_r_entry`: its return value, the pointer, and the table after it wrote through
  it. -/
  checkREntry (recvd : OdrFrame) (entry : Ptr) (intfN : Int) (nextHop : Mac) (now : Int) :
    Table → Bool × Ptr × Table
  /-- The entry a pointer points at. -/
  entryAt : Table → Ptr → Option REntry
  /-- What `dest_r_entry` points at when the cases of the `switch` read it. -/
  rereadDest (f : OdrFrame) (dest src : Lookup Table Ptr) (learned : Learned Table Ptr) :
    Option REntry

instance : TableOps (List REntry) REntry where
  getREntry := getREntry
  isBroadidGreater := isBroadidGreater
  insertREntry recvd intfN nextHop now table :=
    (updateREntry recvd intfN nextHop now, insertREntry recvd intfN nextHop now table)
  checkREntry recvd entry intfN nextHop now table :=
    let r := checkREntry recvd entry intfN nextHop now
    (r.1, r.2, replaceKey REntry.destip recvd.srcIp r.2 table)
  entryAt _ entry := some entry
  rereadDest := rereadDest

/-- Learn the route to the frame's source: update the entry the lookup found, or
insert a new one. -/
def learnSource {Table Ptr : Type} [TableOps Table Ptr] (recvd : OdrFrame) (intfN : Int)
    (nextHop : Mac) (now : Int) (src : Lookup Table Ptr) : Learned Table Ptr :=
  match src.entry with
  | some entry =>
      let r := TableOps.checkREntry recvd entry intfN nextHop now src.table
      { flag := r.1, entry := r.2.1, table := r.2.2 }
  | none =>
      let r := TableOps.insertREntry recvd intfN nextHop now src.table
      { flag := true, entry := r.1, table := r.2 }

section Ops

variable (staleParam now : Int) (ip : Ip) (n : Int) (table : List REntry) (e : REntry)

@[simp] theorem getREntry_list :
    TableOps.getREntry staleParam now ip n table = getREntry staleParam now ip n table := rfl

@[simp] theorem isBroadidGreater_list :
    TableOps.isBroadidGreater ip n table = isBroadidGreater ip n table := rfl

@[simp] theorem entryAt_list : TableOps.entryAt table e = some e := rfl

@[simp] theorem rereadDest_list (f : OdrFrame) (dest src : Lookup) (learned : Learned) :
    TableOps.rereadDest f dest src learned = rereadDest f dest src learned := rfl

theorem bind_entryAt_list (o : Option REntry) : o.bind (TableOps.entryAt table) = o := by
  cases o <;> rfl

end Ops

/-! ## What the operations do to a later lookup -/

variable {staleParam now : Int} {ip ip' : Ip} {flag : Int} {table : List REntry}
  {e : REntry} {f : OdrFrame} {intfN : Int} {mac : Mac}

@[simp] theorem updateREntry_destip : (updateREntry f intfN mac now).destip = f.srcIp := rfl

@[simp] theorem updateREntry_noHops :
    (updateREntry f intfN mac now).noHops = f.hopCount + 1 := rfl

@[simp] theorem updateREntry_broadcastId :
    (updateREntry f intfN mac now).broadcastId = f.broadcastId := rfl

theorem route_mem (h : route table ip = some e) : e ∈ table ∧ e.destip = ip :=
  mem_of_findKey h

theorem acceptsUpdate_iff :
    acceptsUpdate f e = true ↔ e.broadcastId < f.broadcastId ∨
      f.broadcastId = e.broadcastId ∧ f.hopCount + 1 ≤ e.noHops := by
  simp [acceptsUpdate]

/-- A lookup either unlinks the first match and finds nothing, or leaves the
table and returns the first match. -/
theorem getREntry_cases (staleParam now : Int) (ip : Ip) (flag : Int) (table : List REntry) :
    (∃ e, route table ip = some e ∧ (now - e.timestamp ≥ staleParam ∨ flag = 1) ∧
      getREntry staleParam now ip flag table =
        { entry := none, table := eraseKey REntry.destip ip table, deleted := true }) ∨
    ((∀ e, route table ip = some e → now - e.timestamp < staleParam ∧ flag ≠ 1) ∧
      getREntry staleParam now ip flag table =
        { entry := route table ip, table := table, deleted := false }) := by
  induction table with
  | nil => exact .inr ⟨by simp [route], rfl⟩
  | cons curr rest ih =>
      by_cases hcurr : curr.destip = ip
      · have hroute : route (curr :: rest) ip = some curr := by
          simp [route, findKey, hcurr]
        by_cases hdel : now - curr.timestamp ≥ staleParam ∨ flag = 1
        · refine .inl ⟨curr, hroute, hdel, ?_⟩
          simp [getREntry, hcurr, hdel, eraseKey]
        · refine .inr ⟨?_, ?_⟩
          · intro e he
            obtain rfl : curr = e := by simpa [hroute] using he
            omega
          · rw [getREntry, if_pos hcurr, if_neg hdel, hroute]
      · have hroute : route (curr :: rest) ip = route rest ip := findKey_cons_of_ne hcurr
        rw [hroute, getREntry, if_neg hcurr]
        rcases ih with ⟨e, he, hdel, hget⟩ | ⟨hfresh, hget⟩
        · exact .inl ⟨e, he, hdel, by simp [hget, eraseKey, hcurr]⟩
        · exact .inr ⟨hfresh, by simp [hget]⟩

theorem getREntry_of_fresh (hroute : route table ip = some e)
    (hkeep : now - e.timestamp < staleParam ∧ flag ≠ 1) :
    getREntry staleParam now ip flag table =
      { entry := some e, table := table, deleted := false } := by
  rcases getREntry_cases staleParam now ip flag table with ⟨e', he', hdel, -⟩ | ⟨-, hget⟩
  · obtain rfl : e = e' := by simpa [hroute] using he'
    omega
  · rw [hget, hroute]

theorem getREntry_of_expired (hroute : route table ip = some e)
    (hdel : now - e.timestamp ≥ staleParam ∨ flag = 1) :
    getREntry staleParam now ip flag table =
      { entry := none, table := eraseKey REntry.destip ip table, deleted := true } := by
  rcases getREntry_cases staleParam now ip flag table with ⟨_, _, _, hget⟩ | ⟨hfresh, -⟩
  · exact hget
  · have := hfresh e hroute
    omega

theorem getREntry_of_absent (hroute : route table ip = none) :
    getREntry staleParam now ip flag table =
      { entry := none, table := table, deleted := false } := by
  rcases getREntry_cases staleParam now ip flag table with ⟨e', he', _, -⟩ | ⟨-, hget⟩
  · simp [hroute] at he'
  · rw [hget, hroute]

/-- A lookup leaves the other entries in order. -/
theorem getREntry_sublist (staleParam now : Int) (ip : Ip) (flag : Int) (table : List REntry) :
    ((getREntry staleParam now ip flag table).table).Sublist table := by
  rcases getREntry_cases staleParam now ip flag table with ⟨_, _, _, hget⟩ | ⟨_, hget⟩
  · rw [hget]
    exact eraseKey_sublist REntry.destip ip table
  · rw [hget]

theorem mem_of_mem_getREntry_table (h : e ∈ (getREntry staleParam now ip flag table).table) :
    e ∈ table :=
  (getREntry_sublist staleParam now ip flag table).subset h

/-- What a lookup returns is in the table, before and after. -/
theorem getREntry_entry (h : (getREntry staleParam now ip flag table).entry = some e) :
    route table ip = some e ∧ (getREntry staleParam now ip flag table).table = table ∧
      (getREntry staleParam now ip flag table).deleted = false := by
  rcases getREntry_cases staleParam now ip flag table with ⟨_, _, _, hget⟩ | ⟨_, hget⟩
  · rw [hget] at h
    simp at h
  · rw [hget] at h ⊢
    exact ⟨h, rfl, rfl⟩

theorem getREntry_fresh (h : (getREntry staleParam now ip flag table).entry = some e) :
    now - e.timestamp < staleParam ∧ flag ≠ 1 := by
  rcases getREntry_cases staleParam now ip flag table with ⟨_, _, _, hget⟩ | ⟨hfresh, hget⟩
  · rw [hget] at h
    simp at h
  · rw [hget] at h
    exact hfresh e h

theorem getREntry_of_not_deleted
    (h : (getREntry staleParam now ip flag table).deleted = false) :
    (getREntry staleParam now ip flag table).entry = route table ip ∧
      (getREntry staleParam now ip flag table).table = table := by
  rcases getREntry_cases staleParam now ip flag table with ⟨_, _, _, hget⟩ | ⟨_, hget⟩
  · rw [hget] at h
    simp at h
  · rw [hget]
    exact ⟨rfl, rfl⟩

/-- A lookup never touches the route to another address. -/
theorem route_getREntry_of_ne (h : ip ≠ ip') :
    route (getREntry staleParam now ip flag table).table ip' = route table ip' := by
  rcases getREntry_cases staleParam now ip flag table with ⟨_, _, _, hget⟩ | ⟨_, hget⟩
  · rw [hget]
    exact findKey_eraseKey_of_ne h
  · rw [hget]

theorem isBroadidGreater_lt_iff {bid : Int} :
    isBroadidGreater ip bid table < 0 ↔ ∃ e ∈ table, e.destip = ip ∧ bid ≤ e.broadcastId := by
  induction table with
  | nil => simp [isBroadidGreater]
  | cons curr rest ih =>
      by_cases hcurr : curr.destip = ip ∧ bid ≤ curr.broadcastId
      · simp [isBroadidGreater, hcurr]
      · rw [isBroadidGreater, if_neg hcurr, ih]
        simp [hcurr]

/-! ## Learning the source's route -/

variable {src : Lookup}

theorem learnSource_of_some (h : src.entry = some e) :
    learnSource f intfN mac now src =
      { flag := (checkREntry f e intfN mac now).1
        entry := (checkREntry f e intfN mac now).2
        table := replaceKey REntry.destip f.srcIp (checkREntry f e intfN mac now).2
          src.table } := by
  rw [learnSource, h]
  rfl

theorem learnSource_of_none (h : src.entry = none) :
    learnSource f intfN mac now src =
      { flag := true
        entry := updateREntry f intfN mac now
        table := insertREntry f intfN mac now src.table } := by
  rw [learnSource, h]
  rfl

/-- `check_r_entry` on the entry of the frame's source leaves an entry of that source. -/
theorem checkREntry_destip (h : e.destip = f.srcIp) :
    (checkREntry f e intfN mac now).2.destip = f.srcIp := by
  rw [checkREntry]
  split
  · rfl
  · exact h

/-- After learning, the route to the source is the entry `src_r_entry` points at. -/
theorem route_learnSource_self (hsrc : ∀ e, src.entry = some e → route src.table f.srcIp = some e) :
    route (learnSource f intfN mac now src).table f.srcIp =
      some (learnSource f intfN mac now src).entry := by
  cases hentry : src.entry with
  | some entry =>
      have hroute := hsrc _ hentry
      rw [learnSource_of_some hentry]
      exact findKey_replaceKey_self (checkREntry_destip (route_mem hroute).2) hroute
  | none =>
      rw [learnSource_of_none hentry]
      simp [route, insertREntry, findKey]

theorem route_learnSource_of_ne (hsrc : ∀ e, src.entry = some e → route src.table f.srcIp = some e)
    (h : f.srcIp ≠ ip) :
    route (learnSource f intfN mac now src).table ip = route src.table ip := by
  cases hentry : src.entry with
  | some entry =>
      rw [learnSource_of_some hentry]
      exact findKey_replaceKey_of_ne (checkREntry_destip (route_mem (hsrc _ hentry)).2) h
  | none =>
      rw [learnSource_of_none hentry]
      exact findKey_cons_of_ne h

/-- The learned entry is either rewritten from the frame, and then the flag is
set, or the one that was there and that the frame does not improve. -/
theorem learnSource_cases (f : OdrFrame) (intfN : Int) (mac : Mac) (now : Int) (src : Lookup) :
    ((learnSource f intfN mac now src).flag = true ∧
      (learnSource f intfN mac now src).entry = updateREntry f intfN mac now ∧
      ∀ e, src.entry = some e → acceptsUpdate f e = true) ∨
    ((learnSource f intfN mac now src).flag = false ∧
      src.entry = some (learnSource f intfN mac now src).entry ∧
      acceptsUpdate f (learnSource f intfN mac now src).entry = false) := by
  cases hentry : src.entry with
  | some entry =>
      rw [learnSource_of_some hentry]
      simp only [checkREntry]
      split
      · next hacc =>
          refine .inl ⟨rfl, rfl, fun e he => ?_⟩
          obtain rfl := Option.some.inj he
          exact hacc
      · next hacc => exact .inr ⟨rfl, rfl, by simpa using hacc⟩
  | none =>
      rw [learnSource_of_none hentry]
      exact .inl ⟨rfl, rfl, fun e he => by simp at he⟩

theorem mem_learnSource_table (h : e ∈ (learnSource f intfN mac now src).table)
    (hsrc : ∀ e, src.entry = some e → e ∈ src.table) :
    e = updateREntry f intfN mac now ∨ e ∈ src.table := by
  cases hentry : src.entry with
  | some entry =>
      rw [learnSource_of_some hentry] at h
      simp only [checkREntry] at h
      split at h
      · exact mem_of_mem_replaceKey h
      · rcases mem_of_mem_replaceKey h with rfl | hmem
        · exact .inr (hsrc _ hentry)
        · exact .inr hmem
  | none =>
      rw [learnSource_of_none hentry] at h
      exact List.mem_cons.mp h

end OnDemandRouting.Model
