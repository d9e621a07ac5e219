import Mathlib.Data.List.Perm.Subperm

/-!
# Doubly linked lists in memory

Cells with a value and two pointers, in a memory from which nothing is freed.  `Chain`
relates a pointer to the addresses and values that are met from there by `next`, with
every `prev` but the first pointing back.  The first `prev` is a parameter, so that a
chain may start in the middle of a list, or at a head whose `prev` is left over.  The
rules say what the edits of a list do to its chain.
-/

namespace OnDemandRouting.Lib

variable {α : Type*}

/-- A list element in memory. -/
structure Cell (α : Type*) where
  val : α
  next : Option Nat
  prev : Option Nat

/-- The cell at an address is the one with that index. -/
abbrev Heap (α : Type*) := List (Cell α)

/-- `a->next`. -/
def nextOf (a : Nat) (h : Heap α) : Option Nat := h[a]?.bind Cell.next

/-- `a->prev`. -/
def prevOf (a : Nat) (h : Heap α) : Option Nat := h[a]?.bind Cell.prev

/-- `if (p) p->next = q`. -/
def setNext (p q : Option Nat) (h : Heap α) : Heap α :=
  match p with
  | none => h
  | some a => h.modify a fun c => { c with next := q }

/-- `if (p) p->prev = q`. -/
def setPrev (p q : Option Nat) (h : Heap α) : Heap α :=
  match p with
  | none => h
  | some a => h.modify a fun c => { c with prev := q }

/-- Overwrite the value at an address. -/
def setVal (a : Nat) (v : α) (h : Heap α) : Heap α := h.modify a fun c => { c with val := v }

/-- Make the neighbours of a cell point to each other. -/
def unlinkCell (a : Nat) (h : Heap α) : Heap α :=
  let h := setNext (prevOf a h) (nextOf a h) h
  setPrev (nextOf a h) (prevOf a h) h

/-- A new cell with cleared pointers, at the next free address. -/
def alloc (v : α) (h : Heap α) : Heap α := h ++ [{ val := v, next := none, prev := none }]

/-- Follow `next` up to the first value that `q` accepts, for at most `fuel` cells. -/
def search (h : Heap α) (q : α → Bool) : Nat → Option Nat → Option Nat
  | 0, _ => none
  | _ + 1, none => none
  | fuel + 1, some a =>
      match h[a]? with
      | none => none
      | some c => if q c.val then some a else search h q fuel c.next

/-- From pointer `s`, `next` leads through the addresses of `l` to the null pointer, the
cells hold the values of `l`, and each `prev` points back; that of the first is `p`. -/
inductive Chain (h : Heap α) : Option Nat → Option Nat → List (Nat × α) → Prop
  | nil (p : Option Nat) : Chain h p none []
  | cons {p n : Option Nat} {a : Nat} {v : α} {l : List (Nat × α)} :
      h[a]? = some { val := v, next := n, prev := p } → Chain h (some a) n l →
      Chain h p (some a) ((a, v) :: l)

/-- The pointer back to the end of a part of a chain that starts after `p`. -/
def back (p : Option Nat) : List (Nat × α) → Option Nat
  | [] => p
  | x :: l => back (some x.1) l

/-! ## Cells after an edit -/

section Cells

variable {h : Heap α} {p q : Option Nat} {a x : Nat} {v : α}

theorem getElem?_setNext :
    (setNext p q h)[x]? =
      if p = some x then h[x]?.map fun c => { c with next := q } else h[x]? := by
  cases p with
  | none => simp [setNext]
  | some a => by_cases hx : a = x <;> simp [setNext, hx]

theorem getElem?_setPrev :
    (setPrev p q h)[x]? =
      if p = some x then h[x]?.map fun c => { c with prev := q } else h[x]? := by
  cases p with
  | none => simp [setPrev]
  | some a => by_cases hx : a = x <;> simp [setPrev, hx]

theorem setNext_setPrev_comm (p q p' q' : Option Nat) (h : Heap α) :
    setNext p q (setPrev p' q' h) = setPrev p' q' (setNext p q h) := by
  refine List.ext_getElem? fun x => ?_
  simp only [getElem?_setNext, getElem?_setPrev]
  split_ifs <;> cases h[x]? <;> rfl

theorem getElem?_setVal :
    (setVal a v h)[x]? = if a = x then h[x]?.map fun c => { c with val := v } else h[x]? := by
  by_cases hx : a = x <;> simp [setVal, hx]

theorem getElem?_alloc_of_lt (hx : x < h.length) : (alloc v h)[x]? = h[x]? :=
  List.getElem?_append_left hx

theorem getElem?_alloc_self : (alloc v h)[h.length]? = some ⟨v, none, none⟩ := by
  rw [alloc, List.getElem?_append_right Nat.le.refl, Nat.sub_self]
  rfl

/-- The `next` of a new cell is null already. -/
theorem setNext_alloc_self : setNext (some h.length) none (alloc v h) = alloc v h := by
  refine List.ext_getElem? fun x => ?_
  rw [getElem?_setNext]
  split_ifs with hx
  · obtain rfl := Option.some.inj hx
    rw [getElem?_alloc_self]
    rfl
  · rfl

end Cells

/-! ## Chains -/

namespace Chain

variable {h h' : Heap α} {p q s : Option Nat} {a : Nat} {v : α} {l l₁ l₂ : List (Nat × α)}

/-- A chain reads only its own cells. -/
theorem congr (hc : Chain h p s l) (hag : ∀ x ∈ l, h'[x.1]? = h[x.1]?) : Chain h' p s l := by
  induction hc with
  | nil p => exact .nil p
  | cons hcell _ ih =>
      obtain ⟨hhead, htail⟩ := List.forall_mem_cons.mp hag
      exact .cons (hhead.trans hcell) (ih htail)

theorem exists_cell (hc : Chain h p s l) {x : Nat × α} (hx : x ∈ l) :
    ∃ n q, h[x.1]? = some { val := x.2, next := n, prev := q } := by
  induction hc with
  | nil => simp at hx
  | cons hcell _ ih =>
      rcases List.mem_cons.mp hx with rfl | hx
      · exact ⟨_, _, hcell⟩
      · exact ih hx

theorem lt_length (hc : Chain h p s l) {x : Nat × α} (hx : x ∈ l) : x.1 < h.length := by
  obtain ⟨n, q, hcell⟩ := hc.exists_cell hx
  exact (List.getElem?_eq_some_iff.mp hcell).1

/-- A chain without repeated addresses is no longer than the memory. -/
theorem length_le (hc : Chain h p s l) (hnd : (l.map Prod.fst).Nodup) : l.length ≤ h.length := by
  have hsub : l.map Prod.fst ⊆ List.range h.length := by
    intro a ha
    obtain ⟨x, hx, rfl⟩ := List.mem_map.mp ha
    exact List.mem_range.mpr (hc.lt_length hx)
  simpa using (hnd.subperm hsub).length_le

theorem start_eq (hc : Chain h p s l) : s = (l.map Prod.fst).head? := by
  cases hc with
  | nil => rfl
  | cons _ _ => rfl

/-- The list from a pointer is determined by the memory. -/
theorem unique {l' : List (Nat × α)} (hc : Chain h p s l) (hc' : Chain h q s l') : l = l' := by
  induction hc generalizing q l' with
  | nil =>
      cases hc' with
      | nil => rfl
  | cons hcell _ ih =>
      cases hc' with
      | cons hcell' htail' =>
          rw [hcell, Option.some.injEq, Cell.mk.injEq] at hcell'
          obtain ⟨rfl, rfl, rfl⟩ := hcell'
          rw [ih htail']

/-- A pointer to a cell of the chain is the start only if nothing stands before the cell. -/
theorem start_eq_some_iff (hc : Chain h p s (l₁ ++ (a, v) :: l₂))
    (hnd : ((l₁ ++ (a, v) :: l₂).map Prod.fst).Nodup) : s = some a ↔ l₁ = [] := by
  rw [hc.start_eq]
  constructor
  · intro heq
    cases l₁ with
    | nil => rfl
    | cons x l₁ =>
        obtain rfl := Option.some.inj heq
        exact absurd (by simp) (List.nodup_cons.mp hnd).1
  · rintro rfl
    rfl

/-- `next` leads from each cell of a chain to the one after it. -/
theorem nextOf_eq (hc : Chain h p s l) {i : Nat} (hi : (l.map Prod.fst)[i]? = some a) :
    nextOf a h = (l.map Prod.fst)[i + 1]? := by
  induction hc generalizing i with
  | nil => simp at hi
  | cons hcell htail ih =>
      cases i with
      | zero =>
          obtain rfl := Option.some.inj hi
          rw [nextOf, hcell, List.map_cons, List.getElem?_cons_succ, ← List.head?_eq_getElem?]
          exact htail.start_eq
      | succ i => exact ih hi

/-- `prev` leads from each cell of a chain but the first to the one before it. -/
theorem prevOf_eq (hc : Chain h p s l) {i : Nat} (hi : (l.map Prod.fst)[i]? = some a) :
    prevOf a h = if i = 0 then p else (l.map Prod.fst)[i - 1]? := by
  induction hc generalizing i with
  | nil => simp at hi
  | cons hcell htail ih =>
      cases i with
      | zero =>
          obtain rfl := Option.some.inj hi
          rw [prevOf, hcell]
          rfl
      | succ i =>
          rw [ih hi, if_neg (Nat.succ_ne_zero i), Nat.add_sub_cancel]
          cases i with
          | zero => rfl
          | succ i => rfl

/-- In a list whose first `prev` is null, `prev` is the inverse of `next`. -/
theorem nextOf_iff_prevOf (hc : Chain h none s l) (hnd : (l.map Prod.fst).Nodup) {b : Nat}
    (ha : a ∈ l.map Prod.fst) (hb : b ∈ l.map Prod.fst) :
    nextOf a h = some b ↔ prevOf b h = some a := by
  obtain ⟨i, hi⟩ := List.mem_iff_getElem?.mp ha
  obtain ⟨j, hj⟩ := List.mem_iff_getElem?.mp hb
  rw [hc.nextOf_eq hi, hc.prevOf_eq hj, ← hi, ← hj]
  constructor
  · intro heq
    obtain ⟨hlt, -⟩ := List.getElem?_eq_some_iff.mp (heq.trans hj)
    have hij := (List.getElem?_inj hlt hnd).mp heq
    rw [← hij, if_neg (Nat.succ_ne_zero i), Nat.add_sub_cancel]
  · intro heq
    split_ifs at heq with hzero
    · rw [hi] at heq
      exact absurd heq (by simp)
    · obtain ⟨hlt, -⟩ := List.getElem?_eq_some_iff.mp (heq.trans hi)
      have hij := (List.getElem?_inj hlt hnd).mp heq
      rw [← hij, Nat.sub_add_cancel (Nat.pos_of_ne_zero hzero)]

/-- The cell between two parts of a chain, and the second part. -/
theorem split (hc : Chain h p s (l₁ ++ (a, v) :: l₂)) :
    ∃ n, h[a]? = some { val := v, next := n, prev := back p l₁ } ∧
      Chain h (some a) n l₂ := by
  induction l₁ generalizing p s with
  | nil =>
      cases hc with
      | cons hcell htail => exact ⟨_, hcell, htail⟩
  | cons x l₁ ih =>
      cases hc with
      | cons _ htail => exact ih htail

theorem back_mem (hl : l ≠ []) : ∃ x ∈ l, back p l = some x.1 := by
  induction l generalizing p with
  | nil => exact absurd rfl hl
  | cons x l ih =>
      by_cases htail : l = []
      · subst htail
        exact ⟨x, by simp, rfl⟩
      · obtain ⟨y, hy, hback⟩ := ih (p := some x.1) htail
        exact ⟨y, List.mem_cons_of_mem _ hy, hback⟩

/-- With enough fuel the search finds the first accepted value of the chain. -/
theorem search_eq (hc : Chain h p s l) (f : α → Bool) {fuel : Nat} (hfuel : l.length < fuel) :
    search h f fuel s = (l.find? fun x => f x.2).map Prod.fst := by
  induction hc generalizing fuel with
  | nil =>
      obtain ⟨fuel, rfl⟩ := Nat.exists_eq_succ_of_ne_zero (Nat.ne_zero_of_lt hfuel)
      rfl
  | cons hcell _ ih =>
      obtain ⟨fuel, rfl⟩ := Nat.exists_eq_succ_of_ne_zero (Nat.ne_zero_of_lt hfuel)
      rw [search, hcell, List.find?_cons]
      simp only
      split_ifs with hv
      · simp [hv]
      · rw [ih (Nat.lt_of_succ_lt_succ hfuel)]
        simp [hv]

/-! ## Edits -/

theorem setPrev_head (hc : Chain h q s l) (hnd : (l.map Prod.fst).Nodup) :
    Chain (setPrev s p h) p s l := by
  cases hc with
  | nil => exact .nil p
  | cons hcell htail =>
      obtain ⟨hnot, -⟩ := List.nodup_cons.mp hnd
      refine .cons (by rw [getElem?_setPrev, if_pos rfl, hcell]; rfl) (htail.congr fun x hx => ?_)
      rw [getElem?_setPrev, if_neg]
      intro heq
      obtain rfl := Option.some.inj heq
      exact hnot (List.mem_map.mpr ⟨x, hx, rfl⟩)

theorem setNext_of_notMem (hc : Chain h p s l) {b : Nat} (hb : b ∉ l.map Prod.fst) :
    Chain (setNext (some b) q h) p s l := by
  refine hc.congr fun x hx => ?_
  rw [getElem?_setNext, if_neg]
  intro heq
  obtain rfl := Option.some.inj heq
  exact hb (List.mem_map_of_mem hx)

/-- A new cell in front. -/
theorem push (hc : Chain h p s l) (hnd : (l.map Prod.fst).Nodup) (v : α) :
    Chain (setNext (some h.length) s (setPrev s (some h.length) (alloc v h))) none
        (some h.length) ((h.length, v) :: l) ∧
      (((h.length, v) :: l).map Prod.fst).Nodup := by
  have hfresh : h.length ∉ l.map Prod.fst := by
    intro hmem
    obtain ⟨x, hx, heq⟩ := List.mem_map.mp hmem
    have := hc.lt_length hx
    omega
  have halloc : Chain (alloc v h) p s l :=
    hc.congr fun x hx => getElem?_alloc_of_lt (hc.lt_length hx)
  have hs : s ≠ some h.length := by
    intro heq
    rw [hc.start_eq] at heq
    exact hfresh (List.mem_of_mem_head? heq)
  refine ⟨.cons ?_ ((halloc.setPrev_head hnd).setNext_of_notMem hfresh),
    List.nodup_cons.mpr ⟨hfresh, hnd⟩⟩
  rw [getElem?_setNext, if_pos rfl, getElem?_setPrev, if_neg hs, getElem?_alloc_self]
  rfl

theorem unlinkCell_eq {n : Option Nat} (hcell : h[a]? = some ⟨v, n, q⟩) (hne : q ≠ some a) :
    unlinkCell a h = setPrev n q (setNext q n h) := by
  have hcell' : (setNext q n h)[a]? = some ⟨v, n, q⟩ := by
    rw [getElem?_setNext, if_neg hne, hcell]
  simp only [unlinkCell, nextOf, prevOf, hcell, hcell', Option.bind_some]

theorem ne_of_start_eq {n : Option Nat} {b : Nat} (hc : Chain h q n l)
    (hb : b ∉ l.map Prod.fst) : n ≠ some b := by
  rw [hc.start_eq]
  exact fun heq => hb (List.mem_of_mem_head? heq)

/-- Behind a cell `b`, the cell after it is taken out. -/
theorem relink {b : Nat} {w : α} {n : Option Nat} (hb : h[b]? = some ⟨w, some a, p⟩)
    (htail : Chain h (some a) n l) (hnd : (((b, w) :: l).map Prod.fst).Nodup) :
    Chain (setPrev n (some b) (setNext (some b) n h)) p (some b) ((b, w) :: l) := by
  obtain ⟨hnot, hnd⟩ := List.nodup_cons.mp hnd
  refine .cons ?_ ((htail.setNext_of_notMem hnot).setPrev_head hnd)
  rw [getElem?_setPrev, if_neg (htail.ne_of_start_eq hnot), getElem?_setNext, if_pos rfl, hb]
  rfl

theorem unlink_aux {n : Option Nat} (hc : Chain h p s (l₁ ++ (a, v) :: l₂))
    (htail : Chain h (some a) n l₂) (hnd : ((l₁ ++ (a, v) :: l₂).map Prod.fst).Nodup)
    (hhead : l₁ = [] → p = none) :
    Chain (setPrev n (back p l₁) (setNext (back p l₁) n h)) p (if l₁ = [] then n else s)
      (l₁ ++ l₂) := by
  induction l₁ generalizing p s with
  | nil =>
      obtain rfl := hhead rfl
      exact htail.setPrev_head (List.nodup_cons.mp hnd).2
  | cons y l₁ ih =>
      obtain ⟨b, w⟩ := y
      rw [List.cons_append, List.map_cons] at hnd
      obtain ⟨hnot, hnd'⟩ := List.nodup_cons.mp hnd
      rw [List.map_append, List.map_cons, List.mem_append, List.mem_cons] at hnot
      cases hc with
      | cons hb hrest =>
          by_cases hl₁ : l₁ = []
          · -- `b` is the cell before the one that goes
            subst hl₁
            cases hrest with
            | cons _ _ =>
                refine relink hb htail (List.nodup_cons.mpr ⟨?_, (List.nodup_cons.mp hnd').2⟩)
                exact fun hmem => hnot (.inr (.inr hmem))
          · -- the edit is further on, and leaves `b` alone
            have hih := ih hrest hnd' fun hnil => absurd hnil hl₁
            rw [if_neg hl₁] at hih
            refine .cons ?_ hih
            obtain ⟨x, hx, hback⟩ := back_mem (p := some b) hl₁
            have hne : back (some b) l₁ ≠ some b := by
              rw [hback]
              intro heq
              obtain rfl := Option.some.inj heq
              exact hnot (.inl (List.mem_map.mpr ⟨x, hx, rfl⟩))
            rw [getElem?_setPrev, if_neg (htail.ne_of_start_eq fun hmem => hnot (.inr (.inr hmem))),
              getElem?_setNext]
            exact (if_neg hne).trans hb

/-- Making the neighbours of a cell point to each other takes it out of the list. -/
theorem unlink (hc : Chain h p s (l₁ ++ (a, v) :: l₂))
    (hnd : ((l₁ ++ (a, v) :: l₂).map Prod.fst).Nodup) (hhead : l₁ = [] → p = none) :
    Chain (unlinkCell a h) p (if l₁ = [] then nextOf a h else s) (l₁ ++ l₂) := by
  obtain ⟨n, hcell, htail⟩ := hc.split
  have hne : back p l₁ ≠ some a := by
    by_cases hl₁ : l₁ = []
    · subst hl₁
      rw [hhead rfl]
      simp [back]
    · obtain ⟨x, hx, hback⟩ := back_mem (p := p) hl₁
      rw [hback]
      intro heq
      obtain rfl := Option.some.inj heq
      rw [List.map_append] at hnd
      exact (List.nodup_append.mp hnd).2.2 _ (List.mem_map_of_mem hx) _ (by simp) rfl
  rw [unlinkCell_eq hcell hne, nextOf, hcell]
  exact hc.unlink_aux htail hnd hhead

/-- Overwriting a value changes that value of the chain. -/
theorem set_val (hc : Chain h p s l) (a : Nat) (v : α) :
    Chain (setVal a v h) p s (l.map fun x => if x.1 = a then (x.1, v) else x) := by
  induction hc with
  | nil p => exact .nil p
  | cons hcell _ ih =>
      rename_i p n b w l _
      by_cases hb : b = a
      · subst hb
        rw [List.map_cons, if_pos rfl]
        exact .cons (by rw [getElem?_setVal, if_pos rfl, hcell]; rfl) ih
      · rw [List.map_cons, if_neg hb]
        exact .cons (by rw [getElem?_setVal, if_neg (Ne.symm hb), hcell]) ih

end Chain

/-- Overwriting at one of several distinct addresses. -/
theorem map_update_append {a : Nat} {v v' : α} {l₁ l₂ : List (Nat × α)}
    (hnd : ((l₁ ++ (a, v) :: l₂).map Prod.fst).Nodup) :
    ((l₁ ++ (a, v) :: l₂).map fun x => if x.1 = a then (x.1, v') else x) =
      l₁ ++ (a, v') :: l₂ := by
  rw [List.map_append, List.map_cons, List.perm_middle.nodup_iff] at hnd
  obtain ⟨hnot, -⟩ := List.nodup_cons.mp hnd
  rw [List.mem_append, not_or] at hnot
  have hkeep : ∀ l : List (Nat × α), a ∉ l.map Prod.fst →
      (l.map fun x => if x.1 = a then (x.1, v') else x) = l := by
    intro l ha
    refine (List.map_congr_left fun x hx => ?_).trans (List.map_id l)
    exact if_neg fun heq => ha (List.mem_map.mpr ⟨x, hx, heq⟩)
  rw [List.map_append, List.map_cons, hkeep l₁ hnot.1, hkeep l₂ hnot.2, if_pos rfl]

end OnDemandRouting.Lib
