import Mathlib.Algebra.GroupWithZero.Nat
import Mathlib.Algebra.Order.BigOperators.Group.List
import Mathlib.Algebra.Order.Group.Nat
import OnDemandRouting.Lib.Trace

/-!
# Charging the steps of a run

Amortised accounting for the runs of a step function.  A potential is a number
that a state holds in store; every step pays its cost out of the store and out of
what it brings in.  Over a whole run the costs are then bounded by what was in
store at the start and what the steps brought in.

The potentials this is used with weigh the elements of a list.  The last part is
about the weight of a branching process: an element with `d` generations to go
costs `c` and leaves at most `w` others.
-/

namespace OnDemandRouting.Lib

variable {σ α β : Type*}

/-! ## Weights of lists -/

/-- The weight of a list. -/
def weigh (w : β → ℕ) (l : List β) : ℕ := (l.map w).sum

section Weigh

variable {w w' : β → ℕ} {l l' : List β}

@[simp] theorem weigh_nil : weigh w [] = 0 := rfl

@[simp] theorem weigh_cons (x : β) : weigh w (x :: l) = w x + weigh w l := rfl

@[simp] theorem weigh_append : weigh w (l ++ l') = weigh w l + weigh w l' := by
  simp [weigh]

theorem weigh_perm (h : l.Perm l') : weigh w l = weigh w l' := (h.map w).sum_eq

theorem weigh_eraseIdx {k : ℕ} {x : β} (hk : l[k]? = some x) :
    weigh w l = w x + weigh w (l.eraseIdx k) := by
  obtain ⟨hlt, rfl⟩ := List.getElem?_eq_some_iff.mp hk
  exact weigh_perm (List.getElem_cons_eraseIdx_perm hlt).symm

theorem weigh_le_weigh (h : ∀ x ∈ l, w x ≤ w' x) : weigh w l ≤ weigh w' l :=
  List.sum_le_sum h

theorem weigh_eq_zero (h : ∀ x ∈ l, w x = 0) : weigh w l = 0 :=
  List.sum_eq_zero fun _ hn => by
    obtain ⟨x, hx, rfl⟩ := List.mem_map.mp hn
    exact h x hx

/-- Some elements weigh `c` and the others nothing. -/
theorem weigh_ite (p : β → Bool) (c : ℕ) (l : List β) :
    weigh (fun x => if p x then c else 0) l = l.countP p * c := by
  induction l with
  | nil => simp
  | cons x l ih =>
      rw [weigh_cons, ih, List.countP_cons, Nat.add_mul]
      split
      · omega
      · omega

/-- At most one element counts. -/
theorem weigh_le_of_countP_le_one {p : β → Bool} {c : ℕ} (hcount : l.countP p ≤ 1)
    (hw : ∀ x ∈ l, w x ≤ if p x then c else 0) : weigh w l ≤ c := by
  have hle := weigh_le_weigh hw
  rw [weigh_ite] at hle
  calc weigh w l ≤ l.countP p * c := hle
    _ ≤ 1 * c := Nat.mul_le_mul_right c hcount
    _ = c := Nat.one_mul c

end Weigh

/-! ## Runs -/

/-- The sum of `f` over the steps of a run. -/
def total (f : σ → α → ℕ) (h : List (σ × α)) : ℕ := weigh (fun x => f x.1 x.2) h

/-- **The charge rule**, for a cost `c` and a gain `g`.  A step may use that a run with
guarded steps led to it. -/
theorem Trace.charge {step : σ → α → Option σ} {s₀ s : σ} {h : List (σ × α)} {Φ : σ → ℕ}
    {c g : σ → α → ℕ} {G : σ → α → Prop}
    (hstep : ∀ h s a s', Trace step s₀ h s → (∀ x ∈ h, G x.1 x.2) → G s a →
      step s a = some s' → c s a + Φ s' ≤ Φ s + g s a)
    (ht : Trace step s₀ h s) (hG : ∀ x ∈ h, G x.1 x.2) :
    total c h + Φ s ≤ Φ s₀ + total g h := by
  induction ht with
  | nil => simp [total]
  | @snoc h s s' a ht ha ih =>
      obtain ⟨hlast, hbefore⟩ := List.forall_mem_cons.mp hG
      have hpaid := hstep h s a s' ht hbefore hlast ha
      have hsofar := ih hbefore
      simp only [total, weigh_cons] at hsofar ⊢
      omega

/-! ## Branching -/

/-- What an element costs that has `d` generations to go, if each element costs `c`
and leaves at most `w` others. -/
def treeCost (c w : ℕ) : ℕ → ℕ
  | 0 => c
  | d + 1 => c + w * treeCost c w d

theorem le_treeCost (c w d : ℕ) : c ≤ treeCost c w d := by
  cases d with
  | zero => exact Nat.le_refl c
  | succ d => exact Nat.le_add_right _ _

end OnDemandRouting.Lib
