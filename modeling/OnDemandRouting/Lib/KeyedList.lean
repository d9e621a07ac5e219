import Mathlib.Data.List.Nodup

/-!
# Lists searched by a key

A linked list that is scanned for the first element with a given key: the first
match is found, unlinked or overwritten in place.  The lemmas say what each
operation does to a later search, for the same key and for every other key.
-/

namespace OnDemandRouting.Lib

variable {α κ : Type*} [DecidableEq κ] (key : α → κ)

/-- The first element with key `k`. -/
def findKey (k : κ) : List α → Option α
  | [] => none
  | x :: xs => if key x = k then some x else findKey k xs

/-- Unlink the first element with key `k`. -/
def eraseKey (k : κ) : List α → List α
  | [] => []
  | x :: xs => if key x = k then xs else x :: eraseKey k xs

/-- Overwrite the first element with key `k` by `b`. -/
def replaceKey (k : κ) (b : α) : List α → List α
  | [] => []
  | x :: xs => if key x = k then b :: xs else x :: replaceKey k b xs

variable {key} {k k' : κ} {a b : α} {l : List α}

@[simp] theorem findKey_nil : findKey key k [] = none := rfl

@[simp] theorem findKey_cons_self : findKey key (key a) (a :: l) = some a := by
  simp [findKey]

theorem findKey_cons_of_ne (h : key a ≠ k) : findKey key k (a :: l) = findKey key k l := by
  simp [findKey, h]

theorem mem_of_findKey (h : findKey key k l = some a) : a ∈ l ∧ key a = k := by
  induction l with
  | nil => simp at h
  | cons x xs ih =>
      by_cases hx : key x = k
      · obtain rfl : x = a := by simpa [findKey, hx] using h
        exact ⟨by simp, hx⟩
      · rw [findKey_cons_of_ne hx] at h
        exact ⟨List.mem_cons_of_mem _ (ih h).1, (ih h).2⟩

theorem findKey_isSome_of_mem (ha : a ∈ l) (hk : key a = k) :
    ∃ b, findKey key k l = some b := by
  induction l with
  | nil => simp at ha
  | cons x xs ih =>
      by_cases hx : key x = k
      · exact ⟨x, by simp [findKey, hx]⟩
      · rw [findKey_cons_of_ne hx]
        rcases List.mem_cons.mp ha with rfl | ha
        · exact absurd hk hx
        · exact ih ha

theorem findKey_eq_none_iff : findKey key k l = none ↔ ∀ a ∈ l, key a ≠ k := by
  constructor
  · intro h a ha hk
    obtain ⟨b, hb⟩ := findKey_isSome_of_mem ha hk
    simp [h] at hb
  · intro h
    cases hf : findKey key k l with
    | none => rfl
    | some b => exact absurd (mem_of_findKey hf).2 (h b (mem_of_findKey hf).1)

/-- What is left keeps its order. -/
theorem eraseKey_sublist (key : α → κ) (k : κ) (l : List α) : (eraseKey key k l).Sublist l := by
  induction l with
  | nil => exact .slnil
  | cons x xs ih =>
      by_cases hx : key x = k
      · rw [eraseKey, if_pos hx]
        exact List.sublist_cons_self x xs
      · rw [eraseKey, if_neg hx]
        exact ih.cons_cons x

theorem mem_of_mem_eraseKey (h : a ∈ eraseKey key k l) : a ∈ l :=
  (eraseKey_sublist key k l).subset h

theorem length_eraseKey_le (key : α → κ) (k : κ) (l : List α) :
    (eraseKey key k l).length ≤ l.length :=
  (eraseKey_sublist key k l).length_le

/-- A list of at most one element, with the right key. -/
theorem eraseKey_eq_nil (hlen : l.length ≤ 1) (hkey : ∀ x ∈ l, key x = k) :
    eraseKey key k l = [] := by
  rcases l with _ | ⟨x, _ | ⟨y, l⟩⟩
  · rfl
  · simp [eraseKey, hkey x (by simp)]
  · simp at hlen

/-- What is found and what is left make up the list. -/
theorem perm_cons_eraseKey (h : findKey key k l = some a) : l.Perm (a :: eraseKey key k l) := by
  induction l with
  | nil => simp at h
  | cons b l ih =>
      by_cases hb : key b = k
      · rw [findKey, if_pos hb] at h
        obtain rfl := Option.some.inj h
        rw [eraseKey, if_pos hb]
      · rw [findKey_cons_of_ne hb] at h
        rw [eraseKey, if_neg hb]
        exact ((ih h).cons b).trans (.swap a b _)

theorem eraseKey_of_findKey_none (h : findKey key k l = none) : eraseKey key k l = l := by
  induction l with
  | nil => rfl
  | cons a l ih =>
      by_cases ha : key a = k
      · subst ha
        simp at h
      · rw [findKey_cons_of_ne ha] at h
        rw [eraseKey, if_neg ha, ih h]

theorem findKey_eraseKey_of_ne (h : k ≠ k') :
    findKey key k' (eraseKey key k l) = findKey key k' l := by
  induction l with
  | nil => rfl
  | cons x xs ih =>
      by_cases hx : key x = k
      · rw [eraseKey, if_pos hx, findKey_cons_of_ne (by rw [hx]; exact h)]
      · rw [eraseKey, if_neg hx]
        by_cases hx' : key x = k'
        · simp [findKey, hx']
        · rw [findKey_cons_of_ne hx', findKey_cons_of_ne hx', ih]

theorem mem_of_mem_replaceKey (h : a ∈ replaceKey key k b l) : a = b ∨ a ∈ l := by
  induction l with
  | nil => simp [replaceKey] at h
  | cons x xs ih =>
      by_cases hx : key x = k
      · rw [replaceKey, if_pos hx] at h
        rcases List.mem_cons.mp h with rfl | h
        · exact .inl rfl
        · exact .inr (List.mem_cons_of_mem _ h)
      · rw [replaceKey, if_neg hx] at h
        rcases List.mem_cons.mp h with rfl | h
        · exact .inr (by simp)
        · exact (ih h).imp id (List.mem_cons_of_mem _)

theorem findKey_replaceKey_self (hb : key b = k) (ha : findKey key k l = some a) :
    findKey key k (replaceKey key k b l) = some b := by
  induction l with
  | nil => simp at ha
  | cons x xs ih =>
      by_cases hx : key x = k
      · simp [replaceKey, findKey, hx, hb]
      · rw [findKey_cons_of_ne hx] at ha
        rw [replaceKey, if_neg hx, findKey_cons_of_ne hx, ih ha]

theorem findKey_replaceKey_of_ne (hb : key b = k) (h : k ≠ k') :
    findKey key k' (replaceKey key k b l) = findKey key k' l := by
  induction l with
  | nil => rfl
  | cons x xs ih =>
      by_cases hx : key x = k
      · rw [replaceKey, if_pos hx, findKey_cons_of_ne (by rw [hb]; exact h),
          findKey_cons_of_ne (by rw [hx]; exact h)]
      · rw [replaceKey, if_neg hx]
        by_cases hx' : key x = k'
        · simp [findKey, hx']
        · rw [findKey_cons_of_ne hx', findKey_cons_of_ne hx', ih]

theorem map_key_replaceKey (hb : key b = k) : (replaceKey key k b l).map key = l.map key := by
  induction l with
  | nil => rfl
  | cons x xs ih =>
      by_cases hx : key x = k
      · simp [replaceKey, hx, hb]
      · simp [replaceKey, hx, ih]

theorem findKey_none_of_subset {l' : List α} (hsub : ∀ a ∈ l', a ∈ l)
    (h : findKey key k l = none) : findKey key k l' = none :=
  findKey_eq_none_iff.mpr fun a ha => findKey_eq_none_iff.mp h a (hsub a ha)

/-- Unlinking removes the first of the elements with the key, and no other. -/
theorem filter_eraseKey_self (key : α → κ) (k : κ) (l : List α) :
    (eraseKey key k l).filter (fun a => decide (key a = k)) =
      (l.filter fun a => decide (key a = k)).tail := by
  induction l with
  | nil => rfl
  | cons x xs ih =>
      by_cases hx : key x = k
      · simp [eraseKey, hx]
      · simp [eraseKey, hx, ih]

theorem findKey_eq_find? (key : α → κ) (k : κ) (l : List α) :
    findKey key k l = l.find? fun a => decide (key a = k) := by
  induction l with
  | nil => rfl
  | cons x xs ih =>
      by_cases hx : key x = k
      · simp [findKey, hx]
      · simp [findKey, hx, ih]

theorem eraseKey_eq_eraseP (key : α → κ) (k : κ) (l : List α) :
    eraseKey key k l = l.eraseP fun a => decide (key a = k) := by
  induction l with
  | nil => rfl
  | cons x xs ih =>
      by_cases hx : key x = k
      · simp [eraseKey, hx]
      · simp [eraseKey, hx, ih]

/-! ## Around the first match -/

section Split

variable {l₁ l₂ : List α}

theorem findKey_append (h₁ : ∀ x ∈ l₁, key x ≠ k) (ha : key a = k) :
    findKey key k (l₁ ++ a :: l₂) = some a := by
  induction l₁ with
  | nil => simp [findKey, ha]
  | cons x l₁ ih =>
      obtain ⟨hx, h₁⟩ := List.forall_mem_cons.mp h₁
      rw [List.cons_append, findKey_cons_of_ne hx, ih h₁]

theorem eraseKey_append (h₁ : ∀ x ∈ l₁, key x ≠ k) (ha : key a = k) :
    eraseKey key k (l₁ ++ a :: l₂) = l₁ ++ l₂ := by
  induction l₁ with
  | nil => simp [eraseKey, ha]
  | cons x l₁ ih =>
      obtain ⟨hx, h₁⟩ := List.forall_mem_cons.mp h₁
      rw [List.cons_append, eraseKey, if_neg hx, ih h₁, List.cons_append]

theorem replaceKey_append (h₁ : ∀ x ∈ l₁, key x ≠ k) (ha : key a = k) :
    replaceKey key k b (l₁ ++ a :: l₂) = l₁ ++ b :: l₂ := by
  induction l₁ with
  | nil => simp [replaceKey, ha]
  | cons x l₁ ih =>
      obtain ⟨hx, h₁⟩ := List.forall_mem_cons.mp h₁
      rw [List.cons_append, replaceKey, if_neg hx, ih h₁, List.cons_append]

end Split

/-! ## Lists in which no two elements share a key -/

theorem findKey_of_mem (h : (l.map key).Nodup) (ha : a ∈ l) : findKey key (key a) l = some a := by
  obtain ⟨b, hb⟩ : ∃ b, findKey key (key a) l = some b := findKey_isSome_of_mem ha rfl
  obtain ⟨hmem, hkey⟩ := mem_of_findKey hb
  rw [hb, List.inj_on_of_nodup_map h hmem ha hkey]

/-- The element found for a key is the only one with it. -/
theorem filter_key_of_findKey (h : (l.map key).Nodup) (ha : findKey key k l = some a) :
    l.filter (fun b => decide (key b = k)) = [a] := by
  induction l with
  | nil => simp at ha
  | cons x xs ih =>
      obtain ⟨hx, hxs⟩ := List.nodup_cons.mp h
      by_cases hk : key x = k
      · obtain rfl : x = a := by simpa [findKey, hk] using ha
        have hnone : xs.filter (fun b => decide (key b = k)) = [] := by
          rw [List.filter_eq_nil_iff]
          intro b hb hkey
          apply hx
          rw [hk, ← of_decide_eq_true hkey]
          exact List.mem_map_of_mem hb
        rw [List.filter_cons_of_pos (by simpa using hk), hnone]
      · rw [findKey_cons_of_ne hk] at ha
        rw [List.filter_cons_of_neg (by simpa using hk)]
        exact ih hxs ha

theorem nodup_eraseKey (h : (l.map key).Nodup) : ((eraseKey key k l).map key).Nodup :=
  h.sublist ((eraseKey_sublist key k l).map key)

theorem eraseKey_eq_filter (h : (l.map key).Nodup) :
    eraseKey key k l = l.filter fun a => decide (key a ≠ k) := by
  induction l with
  | nil => rfl
  | cons x xs ih =>
      obtain ⟨hnot, hnodup⟩ := List.nodup_cons.mp h
      by_cases hx : key x = k
      · have hkeep : ∀ a ∈ xs, decide (key a ≠ k) = true := by
          intro a ha
          rw [decide_eq_true_eq]
          rintro rfl
          exact hnot (hx ▸ List.mem_map_of_mem ha)
        rw [eraseKey, if_pos hx, List.filter_cons_of_neg (by simp [hx]),
          List.filter_eq_self.mpr hkeep]
      · rw [eraseKey, if_neg hx, List.filter_cons_of_pos (by simp [hx]), ih hnodup]

theorem findKey_eraseKey_self (h : (l.map key).Nodup) :
    findKey key k (eraseKey key k l) = none := by
  rw [eraseKey_eq_filter h, findKey_eq_none_iff]
  intro a ha
  simpa using (List.mem_filter.mp ha).2

end OnDemandRouting.Lib
