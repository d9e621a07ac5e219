import Mathlib.Data.List.Basic

/-!
# Runs of a partial step function

A system is given by a partial step function `step : σ → α → Option σ`: the
action `a` is enabled in `s` when `step s a` is a state.  `Trace` is a finite
run that keeps its history, latest pair first, so that a result may speak of
the steps a run has taken and of the states it went through.  The rules below
turn a one-step obligation into a statement about whole runs.
-/

namespace OnDemandRouting.Lib

variable {σ α : Type*}

/-- `Trace step s₀ h s`: a run from `s₀` ends in `s`, and `h` lists the states
it left together with the actions it took there, latest first. -/
inductive Trace (step : σ → α → Option σ) (s₀ : σ) : List (σ × α) → σ → Prop
  | nil : Trace step s₀ [] s₀
  | snoc {h : List (σ × α)} {s s' : σ} {a : α} :
      Trace step s₀ h s → step s a = some s' → Trace step s₀ ((s, a) :: h) s'

/-- Execute a list of actions and collect the history. -/
def exec (step : σ → α → Option σ) :
    List (σ × α) → σ → List α → Option (List (σ × α) × σ)
  | h, s, [] => some (h, s)
  | h, s, a :: as =>
      match step s a with
      | none => none
      | some s' => exec step ((s, a) :: h) s' as

namespace Trace

variable {step : σ → α → Option σ} {s₀ s s' : σ} {h h' : List (σ × α)}

/-- The invariant rule for the runs whose steps all meet a guard. -/
theorem invariant_of_guard {G : σ → α → Prop} {I : σ → Prop} (hinit : I s₀)
    (hstep : ∀ s a s', I s → G s a → step s a = some s' → I s')
    (ht : Trace step s₀ h s) (hG : ∀ x ∈ h, G x.1 x.2) : I s := by
  induction ht with
  | nil => exact hinit
  | snoc _ ha ih =>
      have hG' := List.forall_mem_cons.mp hG
      exact hstep _ _ _ (ih hG'.2) hG'.1 ha

/-- The invariant rule. -/
theorem invariant {I : σ → Prop} (hinit : I s₀)
    (hstep : ∀ s a s', I s → step s a = some s' → I s')
    (ht : Trace step s₀ h s) : I s :=
  invariant_of_guard (G := fun _ _ => True) hinit
    (fun s a s' hI _ ha => hstep s a s' hI ha) ht (fun _ _ => trivial)

/-- A relation that every step of one system carries over to a step of another with the
same action carries every run over to a run with the same actions. -/
theorem simulate {τ : Type*} {step' : τ → α → Option τ} {R : σ → τ → Prop} {t₀ : τ}
    (hinit : R s₀ t₀)
    (hstep : ∀ s t a s', R s t → step s a = some s' → ∃ t', step' t a = some t' ∧ R s' t')
    (ht : Trace step s₀ h s) :
    ∃ g t, Trace step' t₀ g t ∧ g.map Prod.snd = h.map Prod.snd ∧ R s t := by
  induction ht with
  | nil => exact ⟨[], t₀, .nil, rfl, hinit⟩
  | snoc _ ha ih =>
      obtain ⟨g, t, hg, hacts, hR⟩ := ih
      obtain ⟨t', ht', hR'⟩ := hstep _ _ _ _ hR ha
      exact ⟨(t, _) :: g, t', .snoc hg ht', by simp [hacts], hR'⟩

section Bisimulation

variable {τ : Type*} {step' : τ → α → Option τ} {R : σ → τ → Prop} {t₀ t : τ}
  {g : List (τ × α)} {C : List α → Prop}

theorem exists_of_rel_some_left {s : σ} {o : Option τ} (h : Option.Rel R (some s) o) :
    ∃ t, o = some t ∧ R s t := by
  cases h with
  | some hR => exact ⟨_, rfl, hR⟩

theorem exists_of_rel_some_right {o : Option σ} {t : τ} (h : Option.Rel R o (some t)) :
    ∃ s, o = some s ∧ R s t := by
  cases h with
  | some hR => exact ⟨_, rfl, hR⟩

/-- Two systems whose steps correspond in related states, as long as the actions taken meet
a condition `C` that no prefix of a run escapes.  Then every run of the first that meets it
is matched by one of the second, with the same actions. -/
theorem simulate_of_rel (hC : ∀ a as, C (a :: as) → C as) (hinit : R s₀ t₀)
    (hstep : ∀ g t s a, Trace step' t₀ g t → C (a :: g.map Prod.snd) → R s t →
      Option.Rel R (step s a) (step' t a))
    (ht : Trace step s₀ h s) (hc : C (h.map Prod.snd)) :
    ∃ g t, Trace step' t₀ g t ∧ g.map Prod.snd = h.map Prod.snd ∧ R s t := by
  induction ht with
  | nil => exact ⟨[], t₀, .nil, rfl, hinit⟩
  | @snoc h s s' a ht ha ih =>
      obtain ⟨g, t, hg, hacts, hR⟩ := ih (hC a _ hc)
      have hrel := hstep g t s a hg (by rw [hacts]; exact hc) hR
      rw [ha] at hrel
      obtain ⟨t', ht', hR'⟩ := exists_of_rel_some_left hrel
      exact ⟨(t, a) :: g, t', .snoc hg ht', by simp [hacts], hR'⟩

/-- The same in the other direction. -/
theorem simulated_of_rel (hC : ∀ a as, C (a :: as) → C as) (hinit : R s₀ t₀)
    (hstep : ∀ g t s a, Trace step' t₀ g t → C (a :: g.map Prod.snd) → R s t →
      Option.Rel R (step s a) (step' t a))
    (ht : Trace step' t₀ g t) (hc : C (g.map Prod.snd)) :
    ∃ h s, Trace step s₀ h s ∧ h.map Prod.snd = g.map Prod.snd ∧ R s t := by
  induction ht with
  | nil => exact ⟨[], s₀, .nil, rfl, hinit⟩
  | @snoc g t t' a ht ha ih =>
      obtain ⟨h, s, hh, hacts, hR⟩ := ih (hC a _ hc)
      have hrel := hstep g t s a ht hc hR
      rw [ha] at hrel
      obtain ⟨s', hs', hR'⟩ := exists_of_rel_some_right hrel
      exact ⟨(s, a) :: h, s', .snoc hh hs', by simp [hacts], hR'⟩

end Bisimulation

theorem trans (h₁ : Trace step s₀ h s) (h₂ : Trace step s h' s') :
    Trace step s₀ (h' ++ h) s' := by
  induction h₂ with
  | nil => simpa using h₁
  | snoc _ ha ih => exact .snoc ih ha

/-- A run can be cut at every step of its history. -/
theorem split {h₀ h₁ : List (σ × α)} {s₁ : σ} {a : α}
    (ht : Trace step s₀ (h₁ ++ (s₁, a) :: h₀) s) :
    ∃ s₁', Trace step s₀ h₀ s₁ ∧ step s₁ a = some s₁' ∧ Trace step s₁' h₁ s := by
  induction h₁ generalizing s with
  | nil =>
      cases ht with
      | snoc ht ha => exact ⟨s, ht, ha, .nil⟩
  | cons x h₁ ih =>
      cases ht with
      | snoc ht ha =>
          obtain ⟨s₁', ht₀, hs₁, ht₁⟩ := ih ht
          exact ⟨s₁', ht₀, hs₁, .snoc ht₁ ha⟩

/-- Every state in the history of a run is reached by a part of that run. -/
theorem of_mem_history (ht : Trace step s₀ h s) {x : σ × α} (hx : x ∈ h) :
    ∃ h₀ h₁ s₁, h = h₁ ++ x :: h₀ ∧ Trace step s₀ h₀ x.1 ∧
      step x.1 x.2 = some s₁ ∧ Trace step s₁ h₁ s := by
  obtain ⟨h₁, h₀, rfl⟩ := List.append_of_mem hx
  obtain ⟨s₁, hsplit⟩ := split ht
  exact ⟨h₀, h₁, s₁, rfl, hsplit⟩

/-- An execution that goes through is a run. -/
theorem of_exec_aux {as : List α} {r : List (σ × α) × σ}
    (ht : Trace step s₀ h s) (hr : exec step h s as = some r) :
    Trace step s₀ r.1 r.2 := by
  induction as generalizing h s with
  | nil =>
      obtain rfl : (h, s) = r := by simpa [exec] using hr
      exact ht
  | cons a as ih =>
      rw [exec] at hr
      split at hr
      · exact absurd hr (by simp)
      · next s' ha => exact ih (.snoc ht ha) hr

theorem of_exec {as : List α} {r : List (σ × α) × σ}
    (hr : exec step [] s₀ as = some r) : Trace step s₀ r.1 r.2 :=
  of_exec_aux .nil hr

/-- The history of an execution holds its actions, the last one first. -/
theorem map_snd_of_exec {as : List α} {r : List (σ × α) × σ}
    (hr : exec step h s as = some r) :
    r.1.map Prod.snd = as.reverse ++ h.map Prod.snd := by
  induction as generalizing h s with
  | nil =>
      obtain rfl : (h, s) = r := by simpa [exec] using hr
      rfl
  | cons a as ih =>
      rw [exec] at hr
      split at hr
      · exact absurd hr (by simp)
      · rw [ih hr, List.reverse_cons, List.append_assoc]
        rfl

/-- A run found by execution, with a property of its actions and a checked property
of its history and end. -/
theorem exists_of_exec_forall (step : σ → α → Option σ) (s₀ : σ) (as : List α)
    (p : List (σ × α) → σ → Bool) {P : α → Prop} (hP : ∀ a ∈ as, P a)
    (hp : (exec step [] s₀ as).any (fun r => p r.1 r.2) = true) :
    ∃ h s, Trace step s₀ h s ∧ p h s = true ∧ ∀ x ∈ h, P x.2 := by
  obtain ⟨r, hr, hpr⟩ := (Option.any_eq_true _ _).mp hp
  refine ⟨r.1, r.2, of_exec hr, hpr, fun x hx => hP x.2 ?_⟩
  have hmem := List.mem_map_of_mem (f := Prod.snd) hx
  rw [map_snd_of_exec hr, List.map_nil, List.append_nil, List.mem_reverse] at hmem
  exact hmem

theorem exists_of_exec (step : σ → α → Option σ) (s₀ : σ) (as : List α)
    (p : List (σ × α) → σ → Bool)
    (hp : (exec step [] s₀ as).any (fun r => p r.1 r.2) = true) :
    ∃ h s, Trace step s₀ h s ∧ p h s = true := by
  obtain ⟨h, s, ht, hp, _⟩ := exists_of_exec_forall step s₀ as p (fun _ _ => trivial) hp
  exact ⟨h, s, ht, hp⟩

end Trace

/-! ## Operations with results -/

section Outputs

variable {τ β : Type*}

/-- Carry out a list of operations and collect their results. -/
def execOut (step : σ → α → σ × β) : σ → List α → σ × List β
  | s, [] => (s, [])
  | s, a :: as =>
      let r := execOut step (step s a).1 as
      (r.1, (step s a).2 :: r.2)

/-- If related states have related successors and equal results under every operation,
then so they have under every list of operations. -/
theorem execOut_refines {step : σ → α → σ × β} {step' : τ → α → τ × β} {R : σ → τ → Prop}
    (hstep : ∀ s t a, R s t → R (step s a).1 (step' t a).1 ∧ (step s a).2 = (step' t a).2)
    {s : σ} {t : τ} (hR : R s t) (as : List α) :
    R (execOut step s as).1 (execOut step' t as).1 ∧
      (execOut step s as).2 = (execOut step' t as).2 := by
  induction as generalizing s t with
  | nil => exact ⟨hR, rfl⟩
  | cons a as ih =>
      obtain ⟨hR', hout⟩ := hstep s t a hR
      obtain ⟨hend, houts⟩ := ih hR'
      exact ⟨hend, by rw [execOut, execOut, hout, houts]⟩

end Outputs

end OnDemandRouting.Lib
