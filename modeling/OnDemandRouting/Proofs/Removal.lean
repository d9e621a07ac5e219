import OnDemandRouting.Proofs.TableHeap

/-!
# The two removal routines

`get_r_entry` with the discovery flag takes the entry for an address out of the table.
`remove_r_entry` has the same pointer surgery behind a test that is the wrong way round:
it takes out the first entry for any other address.  The two agree on the empty table
only.
-/

namespace OnDemandRouting.Proofs

open OnDemandRouting.Lib
open OnDemandRouting.Model
open OnDemandRouting.Model.RouteHeap (Table)

/-- From the table `t` with the entries `l`, `t'` is what is left without the entry for
`ip`. -/
structure Removed (t t' : Table) (l : List (Nat × REntry)) (ip : Ip) : Prop where
  others : WellFormed t' (l.filter fun x => decide (x.2.destip ≠ ip))
  absent : (∀ x ∈ l, x.2.destip ≠ ip) → t' = t

/-- Both routines remove the entry for `ip`, and leave the same table. -/
structure RemovalsAgree (t : Table) (l : List (Nat × REntry)) (ip : Ip) : Prop where
  remove : Removed t (RouteHeap.removeREntry ip t) l ip
  get : ∀ staleParam now, Removed t (RouteHeap.getREntry staleParam now ip 1 t).table l ip
  same : ∀ staleParam now,
    RouteHeap.removeREntry ip t = (RouteHeap.getREntry staleParam now ip 1 t).table

section Routines

variable {t : Table} {l l' : List (Nat × REntry)} {ip : Ip}

theorem TableAt.unique (ht : TableAt t l) (ht' : TableAt t l') : l = l' :=
  ht.chain.unique ht'.chain

theorem TableAt.head_eq_none_iff (ht : TableAt t l) : t.head = none ↔ l = [] := by
  rw [ht.chain.start_eq]
  simp

/-- The deletion of `get_r_entry` is right on every table. -/
theorem WellFormed.removed_getREntry (hw : WellFormed t l) (staleParam now : Int) (ip : Ip) :
    Removed t (RouteHeap.getREntry staleParam now ip 1 t).table l ip := by
  constructor
  · exact ((hw.getsRoute staleParam now ip 1).gone fun _ _ _ => .inr rfl).2.1
  · intro habsent
    rcases getREntry_heap_cases hw.toTableAt staleParam now ip 1 with
      ⟨-, hget⟩ | ⟨l₁, a, e, l₂, rfl, -, hkey, -⟩
    · rw [hget]
    · exact absurd hkey (habsent (a, e) (by simp))

/-- `remove_r_entry` leaves a table without an entry for another address as it is, and
otherwise takes out the first such entry. -/
theorem TableAt.removeREntry_cases (ht : TableAt t l) (ip : Ip) :
    ((∀ x ∈ l, x.2.destip = ip) ∧ RouteHeap.removeREntry ip t = t) ∨
    ∃ l₁ a e l₂, l = l₁ ++ (a, e) :: l₂ ∧ (∀ x ∈ l₁, x.2.destip = ip) ∧ e.destip ≠ ip ∧
      TableAt (RouteHeap.removeREntry ip t) (l₁ ++ l₂) := by
  rw [RouteHeap.removeREntry]
  rcases ht.scan_cases fun e => decide (e.destip ≠ ip) with
    ⟨hscan, hall⟩ | ⟨l₁, a, e, l₂, hscan, rfl, hbefore, hkey⟩
  · rw [hscan]
    exact .inl ⟨fun x hx => by simpa using hall x hx, rfl⟩
  · rw [hscan]
    refine .inr ⟨l₁, a, e, l₂, rfl, fun x hx => by simpa using hbefore x hx, ?_, ht.unlink⟩
    exact of_decide_eq_true hkey

/-- On a table with an entry, `remove_r_entry` does not leave the entries for the other
addresses. -/
theorem WellFormed.eq_nil_of_removed (hw : WellFormed t l)
    (hr : Removed t (RouteHeap.removeREntry ip t) l ip) : l = [] := by
  rcases hw.toTableAt.removeREntry_cases ip with
    ⟨hall, heq⟩ | ⟨l₁, a, e, l₂, rfl, -, hkey, ht⟩
  · -- the entry for `ip` is the only one, and stays
    have hnil : (l.filter fun x => decide (x.2.destip ≠ ip)) = [] := by
      rw [List.filter_eq_nil_iff]
      intro x hx
      simp [hall x hx]
    have hothers := hr.others.toTableAt
    rw [heq, hnil] at hothers
    exact hw.toTableAt.unique hothers
  · -- `e` should have stayed, and its address occurs once
    have heq := ht.unique hr.others.toTableAt
    have hmem : (a, e) ∈ l₁ ++ l₂ := by
      rw [heq, List.mem_filter]
      exact ⟨by simp, by simpa using hkey⟩
    have hnd := hw.addrs
    rw [List.map_append, List.map_cons, List.perm_middle.nodup_iff, ← List.map_append] at hnd
    exact absurd (List.mem_map_of_mem hmem) (List.nodup_cons.mp hnd).1

end Routines

/-- On a well-formed table the two routines agree, and do what they are for, exactly if
the table is empty. -/
theorem removals_agree_iff {t : Table} {l : List (Nat × REntry)} (hw : WellFormed t l) (ip : Ip) :
    RemovalsAgree t l ip ↔ t.head = none := by
  rw [hw.toTableAt.head_eq_none_iff]
  constructor
  · intro hagree
    exact hw.eq_nil_of_removed hagree.remove
  · rintro rfl
    have hremove : RouteHeap.removeREntry ip t = t := by
      rcases hw.toTableAt.removeREntry_cases ip with ⟨-, heq⟩ | ⟨l₁, a, e, l₂, hnil, -⟩
      · exact heq
      · simp at hnil
    have hget := fun staleParam now => hw.removed_getREntry staleParam now ip
    refine ⟨?_, hget, fun staleParam now => ?_⟩
    · rw [hremove]
      exact ⟨hw, fun _ => rfl⟩
    · rw [hremove, (hget staleParam now).absent (by simp)]

theorem empty_table_removals_agree : RemovalsAgree .initial [] "10.0.0.1" := by
  have hw : WellFormed .initial [] := ⟨⟨.nil none, .nil⟩, .nil⟩
  exact (removals_agree_iff hw "10.0.0.1").mpr rfl

/-- The entry that a notification from `src` leaves. -/
def entryFrom (src : Ip) : REntry where
  destip := src
  nextHop := 0
  ifNo := 3
  noHops := 1
  broadcastId := 11
  timestamp := 0

/-- Two entries, the one for `10.0.0.4` in front. -/
def twoEntries : Table where
  heap := [⟨entryFrom "10.0.0.1", none, some 1⟩, ⟨entryFrom "10.0.0.4", some 0, none⟩]
  head := some 1

/-- `remove_r_entry` for `10.0.0.1` takes out the entry for `10.0.0.4`. -/
theorem other_entry_removed :
    WellFormed twoEntries [(1, entryFrom "10.0.0.4"), (0, entryFrom "10.0.0.1")] ∧
    WellFormed (RouteHeap.removeREntry "10.0.0.1" twoEntries) [(0, entryFrom "10.0.0.1")] ∧
    (∀ staleParam now, WellFormed
      (RouteHeap.getREntry staleParam now "10.0.0.1" 1 twoEntries).table
      [(1, entryFrom "10.0.0.4")]) ∧
    ¬ RemovalsAgree twoEntries [(1, entryFrom "10.0.0.4"), (0, entryFrom "10.0.0.1")]
      "10.0.0.1" := by
  have hw : WellFormed twoEntries [(1, entryFrom "10.0.0.4"), (0, entryFrom "10.0.0.1")] :=
    ⟨⟨.cons rfl (.cons rfl (.nil _)), by decide⟩, by simp [UniqueRoutes, entryFrom]⟩
  have hremove : WellFormed (RouteHeap.removeREntry "10.0.0.1" twoEntries)
      [(0, entryFrom "10.0.0.1")] :=
    ⟨⟨.cons rfl (.nil _), List.nodup_singleton _⟩, List.nodup_singleton _⟩
  refine ⟨hw, hremove, fun staleParam now => ?_, ?_⟩
  · exact (hw.removed_getREntry staleParam now "10.0.0.1").others
  · intro hagree
    exact absurd (hw.eq_nil_of_removed hagree.remove) (by simp)

end OnDemandRouting.Proofs
