import Mathlib.Data.List.Perm.Basic
import Mathlib.Order.MinMax
import Mathlib.Order.Monotone.Defs

/-!
# A register that keeps the best value

Values of a linear order are offered to a register, which keeps the greatest.  A guarded
offer is also dropped when its level, a coarser measure of the value, is not above the
level of the value held.  The main result says when the register ends with the greatest
value whatever the order of the offers.
-/

namespace OnDemandRouting.Lib

variable {α κ ι : Type*} [LinearOrder α] [LinearOrder κ]

/-- A value offered to the register. -/
structure Offer (α : Type*) where
  guarded : Bool
  value : α

/-- The register after an offer. -/
def absorb (level : α → κ) (held : Option α) (o : Offer α) : Option α :=
  match held with
  | none => some o.value
  | some w =>
      if o.guarded = true ∧ level o.value ≤ level w then some w else some (max w o.value)

/-- The register after the offers of a list. -/
def absorbAll (level : α → κ) (offer : ι → Offer α) (held : Option α) (l : List ι) : Option α :=
  l.foldl (fun held i => absorb level held (offer i)) held

/-- The values that can be in the register after the offers of the list. -/
def candidates (offer : ι → Offer α) (held : Option α) (l : List ι) : List α :=
  held.toList ++ l.map fun i => (offer i).value

section Steps

variable {level : α → κ} {held : Option α} {o : Offer α} {w m : α}

/-- The register holds what it held or what it was offered. -/
theorem absorb_mem (h : absorb level held o = some w) : held = some w ∨ w = o.value := by
  cases held with
  | none => exact .inr (Option.some.inj h).symm
  | some v =>
      rw [absorb] at h
      split_ifs at h
      · exact .inl h
      · rcases max_choice v o.value with hmax | hmax
        · exact .inl (by rw [← h, hmax])
        · exact .inr (by rw [← Option.some.inj h, hmax])

/-- A greatest value stays. -/
theorem absorb_greatest (hle : o.value ≤ m) : absorb level (some m) o = some m := by
  rw [absorb]
  split_ifs
  · rfl
  · rw [max_eq_left hle]

/-- A greatest value comes in, unless it is guarded and the value held is of its level. -/
theorem absorb_of_greatest (hvalue : o.value = m) (hheld : ∀ v, held = some v → v ≤ m)
    (hguard : o.guarded = true → ∀ v, held = some v → level m ≤ level v → v = m) :
    absorb level held o = some m := by
  cases held with
  | none => exact congrArg some hvalue
  | some v =>
      rw [absorb, hvalue]
      split_ifs with hdrop
      · exact congrArg some (hguard hdrop.1 v rfl hdrop.2)
      · rw [max_eq_right (hheld v rfl)]

/-- Once a value of the top level other than the greatest is held, only an unguarded offer
of the greatest can change that. -/
theorem absorb_short (hmono : Monotone level) (hw : w < m) (hlevel : level w = level m)
    (hle : o.value ≤ m) (hne : o.guarded = false → o.value ≠ m) :
    ∃ v, absorb level (some w) o = some v ∧ v < m ∧ level v = level m := by
  rw [absorb]
  split_ifs with hdrop
  · exact ⟨w, rfl, hw, hlevel⟩
  · have hguard : o.guarded = false := by
      rw [← Bool.not_eq_true]
      exact fun hguard => hdrop ⟨hguard, (hmono hle).trans hlevel.ge⟩
    have hlt : max w o.value < m := max_lt hw (lt_of_le_of_ne hle (hne hguard))
    refine ⟨_, rfl, hlt, le_antisymm (hmono hlt.le) ?_⟩
    exact hlevel.ge.trans (hmono (le_max_left _ _))

/-- An offer of such a value leads to it, whatever smaller value was held. -/
theorem absorb_of_short (hmono : Monotone level) (hheld : ∀ v, held = some v → v < m)
    (hlt : o.value < m) (hlevel : level o.value = level m) :
    ∃ v, absorb level held o = some v ∧ v < m ∧ level v = level m := by
  cases held with
  | none => exact ⟨_, rfl, hlt, hlevel⟩
  | some w =>
      have hw := hheld w rfl
      rw [absorb]
      split_ifs with hdrop
      · exact ⟨w, rfl, hw, le_antisymm (hmono hw.le) (hlevel.ge.trans hdrop.2)⟩
      · refine ⟨_, rfl, max_lt hw hlt, le_antisymm (hmono (max_lt hw hlt).le) ?_⟩
        exact hlevel.ge.trans (hmono (le_max_right _ _))

end Steps

section Runs

variable {level : α → κ} {offer : ι → Offer α} {held : Option α} {l l' l₁ l₂ : List ι} {i : ι}
  {m w : α}

@[simp] theorem absorbAll_nil : absorbAll level offer held [] = held := rfl

@[simp] theorem absorbAll_cons : absorbAll level offer held (i :: l) =
    absorbAll level offer (absorb level held (offer i)) l := rfl

theorem absorbAll_append : absorbAll level offer held (l₁ ++ l₂) =
    absorbAll level offer (absorbAll level offer held l₁) l₂ := List.foldl_append

omit [LinearOrder α] in
theorem mem_candidates_perm (hperm : l'.Perm l) {c : α} :
    c ∈ candidates offer held l' ↔ c ∈ candidates offer held l :=
  ((hperm.map fun i => (offer i).value).append_left held.toList).mem_iff

theorem absorbAll_mem (h : absorbAll level offer held l = some w) :
    w ∈ candidates offer held l := by
  induction l generalizing held with
  | nil =>
      rw [absorbAll_nil] at h
      simp [candidates, h]
  | cons i l ih =>
      have hmem := ih h
      rw [candidates, List.mem_append] at hmem
      rw [candidates, List.mem_append, List.map_cons, List.mem_cons]
      rcases hmem with hheld | hmem
      · rcases absorb_mem (Option.mem_toList.mp hheld) with hold | hnew
        · exact .inl (Option.mem_toList.mpr hold)
        · exact .inr (.inl hnew)
      · exact .inr (.inr hmem)

theorem absorbAll_greatest (hle : ∀ i ∈ l, (offer i).value ≤ m) :
    absorbAll level offer (some m) l = some m := by
  induction l with
  | nil => rfl
  | cons i l ih =>
      obtain ⟨hi, hl⟩ := List.forall_mem_cons.mp hle
      rw [absorbAll_cons, absorb_greatest hi, ih hl]

theorem absorbAll_short (hmono : Monotone level) (hw : w < m) (hlevel : level w = level m)
    (hle : ∀ i ∈ l, (offer i).value ≤ m)
    (hne : ∀ i ∈ l, (offer i).guarded = false → (offer i).value ≠ m) :
    absorbAll level offer (some w) l ≠ some m := by
  induction l generalizing w with
  | nil => exact fun h => hw.ne (Option.some.inj h)
  | cons i l ih =>
      obtain ⟨hi, hl⟩ := List.forall_mem_cons.mp hle
      obtain ⟨hi', hl'⟩ := List.forall_mem_cons.mp hne
      obtain ⟨v, habsorb, hv, hlevel'⟩ := absorb_short hmono hw hlevel hi hi'
      rw [absorbAll_cons, habsorb]
      exact ih hv hlevel' hl hl'

/-- If the greatest value is held, offered without guard, or alone on its level, then the
register ends with it. -/
theorem absorbAll_eq_greatest (hmem : m ∈ candidates offer held l)
    (hmax : ∀ c ∈ candidates offer held l, c ≤ m)
    (h : (∀ c ∈ candidates offer held l, level m ≤ level c → c = m) ∨ held = some m ∨
      ∃ i ∈ l, (offer i).guarded = false ∧ (offer i).value = m) :
    absorbAll level offer held l = some m := by
  have hle : ∀ i ∈ l, (offer i).value ≤ m := fun i hi =>
    hmax _ (List.mem_append_right _ (List.mem_map_of_mem hi))
  by_cases hheld : held = some m
  · rw [hheld]
    exact absorbAll_greatest hle
  · -- the list is cut where an offer of the greatest value comes in
    obtain ⟨i, hi, hvalue, hguard⟩ : ∃ i ∈ l, (offer i).value = m ∧
        ((offer i).guarded = true →
          ∀ c ∈ candidates offer held l, level m ≤ level c → c = m) := by
      rcases h with halone | hheld' | ⟨i, hi, hfree, hvalue⟩
      · rcases List.mem_append.mp hmem with hmem | hmem
        · exact absurd (Option.mem_toList.mp hmem) hheld
        · obtain ⟨i, hi, hvalue⟩ := List.mem_map.mp hmem
          exact ⟨i, hi, hvalue, fun _ => halone⟩
      · exact absurd hheld' hheld
      · exact ⟨i, hi, hvalue, fun hguard => absurd hguard (by simp [hfree])⟩
    obtain ⟨l₁, l₂, rfl⟩ := List.append_of_mem hi
    have hsub : ∀ v, absorbAll level offer held l₁ = some v →
        v ∈ candidates offer held (l₁ ++ i :: l₂) := by
      intro v hv
      have := absorbAll_mem hv
      rw [candidates] at this ⊢
      rw [List.map_append, ← List.append_assoc]
      exact List.mem_append_left _ this
    rw [absorbAll_append, absorbAll_cons, absorb_of_greatest hvalue]
    · exact absorbAll_greatest fun j hj => hle j (by simp [hj])
    · exact fun v hv => hmax v (hsub v hv)
    · exact fun hg v hv => hguard hg v (hsub v hv)

/-- The register ends with the greatest value under every order of the offers exactly if
that value is alone on its level, held from the start, or offered without guard. -/
theorem absorbAll_perm_iff (hmono : Monotone level) (hmem : m ∈ candidates offer held l)
    (hmax : ∀ c ∈ candidates offer held l, c ≤ m) :
    (∀ l', l'.Perm l → absorbAll level offer held l' = some m) ↔
      (∀ c ∈ candidates offer held l, level c = level m → c = m) ∨ held = some m ∨
        ∃ i ∈ l, (offer i).guarded = false ∧ (offer i).value = m := by
  constructor
  · intro hall
    by_contra hnot
    rw [not_or, not_or] at hnot
    obtain ⟨halone, hheld, hfree⟩ := hnot
    push Not at halone hfree
    obtain ⟨c, hc, hlevel, hne⟩ := halone
    have hle : ∀ i ∈ l, (offer i).value ≤ m := fun i hi =>
      hmax _ (List.mem_append_right _ (List.mem_map_of_mem hi))
    have hcm : c < m := lt_of_le_of_ne (hmax c hc) hne
    rcases List.mem_append.mp hc with hc | hc
    · -- a value of the top level is held from the start
      have hstart := Option.mem_toList.mp hc
      refine absorbAll_short hmono hcm hlevel hle hfree ?_
      rw [← hstart]
      exact hall l (.refl l)
    · -- such a value is offered: let it come first
      obtain ⟨i, hi, rfl⟩ := List.mem_map.mp hc
      obtain ⟨l₁, l₂, rfl⟩ := List.append_of_mem hi
      have hsub : ∀ j ∈ l₁ ++ l₂, j ∈ l₁ ++ i :: l₂ := by
        intro j hj
        rcases List.mem_append.mp hj with hj | hj <;> simp [hj]
      have hend := hall (i :: (l₁ ++ l₂)) List.perm_middle.symm
      have hheld' : ∀ v, held = some v → v < m := fun v hv =>
        lt_of_le_of_ne (hmax v (by simp [candidates, hv])) fun heq => hheld (hv.trans (heq ▸ rfl))
      obtain ⟨w, hw, hwm, hwlevel⟩ := absorb_of_short hmono hheld' hcm hlevel
      rw [absorbAll_cons, hw] at hend
      exact absorbAll_short hmono hwm hwlevel (fun j hj => hle j (hsub j hj))
        (fun j hj => hfree j (hsub j hj)) hend
  · intro h l' hperm
    refine absorbAll_eq_greatest ((mem_candidates_perm hperm).mpr hmem)
      (fun c hc => hmax c ((mem_candidates_perm hperm).mp hc)) ?_
    rcases h with halone | hheld | ⟨i, hi, hfree, hvalue⟩
    · refine .inl fun c hc hlevel => ?_
      have hc' := (mem_candidates_perm hperm).mp hc
      exact halone c hc' (le_antisymm (hmono (hmax c hc')) hlevel)
    · exact .inr (.inl hheld)
    · exact .inr (.inr ⟨i, hperm.mem_iff.mpr hi, hfree, hvalue⟩)

end Runs

end OnDemandRouting.Lib
