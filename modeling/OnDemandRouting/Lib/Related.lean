import Mathlib.Data.List.Forall2
import Mathlib.Logic.Function.Basic
import OnDemandRouting.Lib.KeyedList

/-!
# Lists and families side by side

Two lists related member by member, and two families related index by index: what one of
them has the other has too, and a change at the same place on both sides keeps them related.
-/

namespace OnDemandRouting.Lib

section Lists

variable {α β : Type*} {R : α → β → Prop} {l : List α} {l' : List β}

theorem exists_cons_of_forall₂ (h : List.Forall₂ R l l') (hne : l' ≠ []) :
    ∃ a as, l = a :: as := by
  cases h with
  | nil => exact absurd rfl hne
  | cons _ _ => exact ⟨_, _, rfl⟩

theorem exists_mem_of_forall₂ (h : List.Forall₂ R l l') {a : α} (ha : a ∈ l) :
    ∃ b ∈ l', R a b := by
  induction h with
  | nil => cases ha
  | cons hab _ ih =>
      cases ha with
      | head => exact ⟨_, List.mem_cons_self, hab⟩
      | tail _ ha =>
          obtain ⟨b, hb, hR⟩ := ih ha
          exact ⟨b, List.mem_cons_of_mem _ hb, hR⟩

theorem rel_getElem? (h : List.Forall₂ R l l') (k : Nat) : Option.Rel R l[k]? l'[k]? := by
  induction h generalizing k with
  | nil => exact .none
  | cons hR _ ih =>
      cases k with
      | zero => exact .some hR
      | succ k => exact ih k

theorem forall₂_eraseIdx (h : List.Forall₂ R l l') (k : Nat) :
    List.Forall₂ R (l.eraseIdx k) (l'.eraseIdx k) := by
  rw [List.eraseIdx_eq_take_drop_succ, List.eraseIdx_eq_take_drop_succ]
  exact List.rel_append (List.forall₂_take k h) (List.forall₂_drop (k + 1) h)

/-! Lists whose related members have the same key. -/

variable {κ : Type*} [DecidableEq κ] {key : α → κ} {key' : β → κ}

theorem rel_findKey (hkey : ∀ a b, R a b → key a = key' b) (h : List.Forall₂ R l l') (k : κ) :
    Option.Rel R (findKey key k l) (findKey key' k l') := by
  induction h with
  | nil => exact .none
  | cons hR _ ih =>
      rw [findKey, findKey, hkey _ _ hR]
      split_ifs
      · exact .some hR
      · exact ih

theorem forall₂_eraseKey (hkey : ∀ a b, R a b → key a = key' b) (h : List.Forall₂ R l l')
    (k : κ) : List.Forall₂ R (eraseKey key k l) (eraseKey key' k l') := by
  induction h with
  | nil => exact .nil
  | cons hR hl ih =>
      rw [eraseKey, eraseKey, hkey _ _ hR]
      split_ifs
      · exact hl
      · exact .cons hR ih

end Lists

/-- Two families that agree still do when they are changed at one index in the same way. -/
theorem forall_update_update {ι α β : Type*} [DecidableEq ι] {f : ι → α} {g : ι → β}
    (P : ι → α → β → Prop) (h : ∀ i, P i (f i) (g i)) {i : ι} {a : α} {b : β} (hi : P i a b)
    (j : ι) : P j (Function.update f i a j) (Function.update g i b j) := by
  by_cases hj : j = i
  · subst hj
    simpa using hi
  · simpa [hj] using h j

end OnDemandRouting.Lib
