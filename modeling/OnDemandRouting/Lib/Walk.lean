import Mathlib.Data.ENat.Lattice
import Mathlib.Data.Fintype.Card
import Mathlib.Logic.Relation

/-!
# Walks and hop distances

`Walk R a b k` is a walk of `k` links of the relation `R` from `a` to `b`, and
`hopDist R a b` the length of a shortest one, `⊤` when there is none.  No
symmetry and no finiteness is assumed.  The last part is about finite relations
without cycles: along them one can only go on for as many steps as there are nodes.
-/

namespace OnDemandRouting.Lib

variable {α : Type*} {R R' : α → α → Prop} {a b c : α} {k l : ℕ}

/-- A walk of `k` links from `a` to `b`. -/
inductive Walk (R : α → α → Prop) (a : α) : α → ℕ → Prop
  | refl : Walk R a a 0
  | tail {b c : α} {k : ℕ} : Walk R a b k → R b c → Walk R a c (k + 1)

/-- The number of links of a shortest walk. -/
noncomputable def hopDist (R : α → α → Prop) (a b : α) : ℕ∞ :=
  ⨅ k : {k : ℕ // Walk R a b k}, (k.1 : ℕ∞)

namespace Walk

theorem mono (hR : ∀ x y, R x y → R' x y) (h : Walk R a b k) : Walk R' a b k := by
  induction h with
  | refl => exact .refl
  | tail _ hr ih => exact .tail ih (hR _ _ hr)

theorem head (hr : R a b) (h : Walk R b c k) : Walk R a c (k + 1) := by
  induction h with
  | refl => exact .tail .refl hr
  | tail _ hl ih => exact .tail ih hl

theorem reverse (h : Walk R a b k) : Walk (fun x y => R y x) b a k := by
  induction h with
  | refl => exact .refl
  | tail _ hr ih => exact head hr ih

/-- A walk either stays clear of `d` until its end, or contains a walk to `d` that
does. -/
theorem avoid_or_reach (d : α) (h : Walk R a b k) :
    Walk (fun x y => R x y ∧ x ≠ d) a b k ∨
      ∃ l ≤ k, Walk (fun x y => R x y ∧ x ≠ d) a d l := by
  induction h with
  | refl => exact .inl .refl
  | @tail b c k _ hr ih =>
      rcases ih with hclear | ⟨l, hl, hreach⟩
      · by_cases hb : b = d
        · subst hb
          exact .inr ⟨k, by omega, hclear⟩
        · exact .inl (.tail hclear ⟨hr, hb⟩)
      · exact .inr ⟨l, by omega, hreach⟩

/-- A walk can be cut at its first visit to its end. -/
theorem exists_avoiding_end (h : Walk R a b k) :
    ∃ l ≤ k, Walk (fun x y => R x y ∧ x ≠ b) a b l :=
  (avoid_or_reach b h).elim (fun hclear => ⟨k, le_refl k, hclear⟩) id

end Walk

theorem hopDist_le_of_walk (h : Walk R a b k) : hopDist R a b ≤ k :=
  iInf_le (fun k : {k : ℕ // Walk R a b k} => (k.1 : ℕ∞)) ⟨k, h⟩

theorem hopDist_le_iff {n : ℕ} : hopDist R a b ≤ n ↔ ∃ k ≤ n, Walk R a b k := by
  constructor
  · intro h
    by_contra hne
    simp only [not_exists, not_and] at hne
    have hle : ((n + 1 : ℕ) : ℕ∞) ≤ hopDist R a b := by
      refine le_iInf fun k => ?_
      have hk : n < k.1 := by
        by_contra hk
        exact hne k.1 (by omega) k.2
      exact_mod_cast hk
    have hbad : ((n + 1 : ℕ) : ℕ∞) ≤ (n : ℕ∞) := hle.trans h
    have hlt : n + 1 ≤ n := by exact_mod_cast hbad
    omega
  · rintro ⟨k, hk, hw⟩
    exact (hopDist_le_of_walk hw).trans (by exact_mod_cast hk)

/-- A shortest walk exists as soon as there is a walk. -/
theorem exists_walk_eq_hopDist (h : Walk R a b k) :
    ∃ d ≤ k, Walk R a b d ∧ hopDist R a b = d := by
  classical
  have hex : ∃ d, Walk R a b d := ⟨k, h⟩
  refine ⟨Nat.find hex, Nat.find_min' hex h, Nat.find_spec hex, ?_⟩
  apply le_antisymm (hopDist_le_of_walk (Nat.find_spec hex))
  exact le_iInf fun d => by exact_mod_cast Nat.find_min' hex d.2

/-! ## Descent along an acyclic relation -/

/-- The number of nodes that can be reached from `a` in one step or more. -/
noncomputable def descent [Fintype α] (R : α → α → Prop) (a : α) : ℕ := by
  classical exact (Finset.univ.filter fun b => Relation.TransGen R a b).card

/-- Without cycles every step leaves fewer nodes to reach. -/
theorem descent_lt [Fintype α] (hacyclic : ∀ c, ¬ Relation.TransGen R c c)
    (hab : R a b) : descent R b < descent R a := by
  classical
  refine Finset.card_lt_card (Finset.ssubset_iff_of_subset ?_ |>.mpr ⟨b, ?_, ?_⟩)
  · intro c hc
    simp only [Finset.mem_filter, Finset.mem_univ, true_and] at hc ⊢
    exact .head hab hc
  · simpa using Relation.TransGen.single hab
  · simpa using hacyclic b

theorem descent_le_card [Fintype α] (R : α → α → Prop) (a : α) :
    descent R a ≤ Fintype.card α := by
  classical
  exact Finset.card_le_univ _

end OnDemandRouting.Lib
