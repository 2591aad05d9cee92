import Mathlib.Data.List.Basic

/-!
# Runs of a deterministic transition function

A system is a function that takes a state and an action and either gives the
next state or refuses the action. A run is a list of actions that are all
accepted. The rules of this module package the two inductions that safety
arguments need: one for a property that every step preserves, and one for a
property that is preserved by the steps that satisfy a side condition, along a
run all of whose steps satisfy it.
-/

universe u v w

namespace Run

variable {σ : Type u} {α : Type v} (step : σ → α → Option σ)
variable {cond' : σ → α → Prop} {P : σ → Prop}

/-- The state after a list of actions, if every one of them is accepted. -/
def exec : σ → List α → Option σ
  | s, [] => some s
  | s, a :: as => (step s a).bind fun s' => exec s' as

/-- Every step of the run satisfies the condition on the state it is taken in. -/
def Along (cond : σ → α → Prop) : σ → List α → Prop
  | _, [] => True
  | s, a :: as => cond s a ∧ ∀ s', step s a = some s' → Along cond s' as

/-- What the steps of a run show, in order. -/
def observe {β : Type w} (obs : σ → α → List β) : σ → List α → List β
  | _, [] => []
  | s, a :: as => obs s a ++ (step s a).elim [] fun s' => observe obs s' as

instance Along.decidable (cond : σ → α → Prop) [∀ s a, Decidable (cond s a)] :
    ∀ s as, Decidable (Along step cond s as)
  | _, [] => isTrue trivial
  | s, a :: as =>
      match h : step s a with
      | none =>
          decidable_of_iff (cond s a) (by simp [Along, h])
      | some s' =>
          have := Along.decidable cond s' as
          decidable_of_iff (cond s a ∧ Along step cond s' as) (by simp [Along, h])

variable {step} {cond : σ → α → Prop} {s s' : σ} {a : α} {as : List α}

theorem exec_cons_some (h : exec step s (a :: as) = some s') :
    ∃ t, step s a = some t ∧ exec step t as = some s' :=
  Option.bind_eq_some_iff.1 h

/-- The rule of guarded invariants: a property preserved by the steps that meet
the condition holds after every run whose steps all meet it. -/
theorem invariant_along (hstep : ∀ s a s', P s → cond s a → step s a = some s' → P s')
    (hs : P s) (halong : Along step cond s as) (hrun : exec step s as = some s') : P s' := by
  induction as generalizing s with
  | nil =>
    cases hrun
    exact hs
  | cons a as ih =>
    obtain ⟨t, ht, hrun⟩ := exec_cons_some hrun
    exact ih (hstep s a t hs halong.1 ht) (halong.2 t ht) hrun

/-- The rule of invariants: a property preserved by every step holds after every run. -/
theorem invariant (hstep : ∀ s a s', P s → step s a = some s' → P s')
    (hs : P s) (hrun : exec step s as = some s') : P s' := by
  induction as generalizing s with
  | nil =>
    cases hrun
    exact hs
  | cons a as ih =>
    obtain ⟨t, ht, hrun⟩ := exec_cons_some hrun
    exact ih (hstep s a t hs ht) hrun

/-- The rule of guarded invariants for a property of the state and of all that was seen. -/
theorem observe_invariant {β : Type w} {obs : σ → α → List β} {P : List β → σ → Prop}
    (hstep : ∀ seen s a s', P seen s → cond s a → step s a = some s' → P (seen ++ obs s a) s')
    {seen : List β} (hs : P seen s) (halong : Along step cond s as)
    (hrun : exec step s as = some s') : P (seen ++ observe step obs s as) s' := by
  induction as generalizing s seen with
  | nil =>
    cases hrun
    simpa [observe] using hs
  | cons a as ih =>
    obtain ⟨t, ht, hrun⟩ := exec_cons_some hrun
    have hrest := ih (hstep seen s a t hs halong.1 ht) (halong.2 t ht) hrun
    rw [List.append_assoc] at hrest
    simpa [observe, ht] using hrest

theorem Along.mono (h : ∀ s a, cond s a → cond' s a)
    (halong : Along step cond s as) : Along step cond' s as := by
  induction as generalizing s with
  | nil => trivial
  | cons a as ih => exact ⟨h s a halong.1, fun t ht => ih (halong.2 t ht)⟩

theorem Along.and (halong : Along step cond s as)
    (halong' : Along step cond' s as) : Along step (fun s a => cond s a ∧ cond' s a) s as := by
  induction as generalizing s with
  | nil => trivial
  | cons a as ih =>
    exact ⟨⟨halong.1, halong'.1⟩, fun t ht => ih (halong.2 t ht) (halong'.2 t ht)⟩

/-- A condition that all actions of a run meet in any state. -/
theorem Along.of_forall (h : ∀ a ∈ as, ∀ s, cond s a) : Along step cond s as := by
  induction as generalizing s with
  | nil => trivial
  | cons a as ih =>
    exact ⟨h a (.head as) s, fun t _ => ih fun b hb => h b (.tail a hb)⟩

/-- A condition on the actions of a run, besides the one on its steps. -/
theorem Along.and_forall {P : α → Prop} (halong : Along step cond s as) (h : ∀ a ∈ as, P a) :
    Along step (fun s a => P a ∧ cond s a) s as :=
  (of_forall fun a ha _ => h a ha).and halong

/-- A run splits where a list of actions is cut. -/
theorem exec_append (s : σ) (as bs : List α) :
    exec step s (as ++ bs) = (exec step s as).bind fun t => exec step t bs := by
  induction as generalizing s with
  | nil => rfl
  | cons a as ih =>
    simp only [List.cons_append, exec]
    cases step s a with
    | none => rfl
    | some t => exact ih t

theorem exec_snoc {t : σ} (hrun : exec step s as = some t) (ht : step t a = some s') :
    exec step s (as ++ [a]) = some s' := by
  rw [exec_append, hrun]
  simp [exec, ht]

/-- A condition that an invariant adds to the steps of a run. -/
theorem Along.of_invariant (hstep : ∀ s a s', P s → step s a = some s' → P s')
    (h : ∀ s a, P s → cond s a → cond' s a) (hs : P s) (halong : Along step cond s as) :
    Along step cond' s as := by
  induction as generalizing s with
  | nil => trivial
  | cons a as ih =>
    exact ⟨h s a hs halong.1, fun t ht => ih (hstep s a t hs ht) (halong.2 t ht)⟩

/-- The rest of a run whose steps meet the condition. -/
theorem Along.of_append {bs : List α} (halong : Along step cond s (as ++ bs))
    (hrun : exec step s as = some s') : Along step cond s as ∧ Along step cond s' bs := by
  induction as generalizing s with
  | nil =>
    cases hrun
    exact ⟨trivial, halong⟩
  | cons a as ih =>
    obtain ⟨t, ht, hrun⟩ := exec_cons_some hrun
    have hrest := ih (halong.2 t ht) hrun
    refine ⟨⟨halong.1, fun t' ht' => ?_⟩, hrest.2⟩
    cases ht.symm.trans ht'
    exact hrest.1

/-- The rule of refinement: if a step that meets the condition is, seen through `view`, no
step or a step of the other system that meets the condition there, so is a run. -/
theorem refines {τ : Type w} {γ : Type*} {step' : τ → γ → Option τ} {cond' : τ → γ → Prop}
    (view : σ → τ)
    (hstep : ∀ s a s', P s → cond s a → step s a = some s' → P s' ∧
      (view s' = view s ∨ ∃ b, cond' (view s) b ∧ step' (view s) b = some (view s')))
    (hs : P s) (halong : Along step cond s as) (hrun : exec step s as = some s') :
    ∃ bs, Along step' cond' (view s) bs ∧ exec step' (view s) bs = some (view s') := by
  induction as generalizing s with
  | nil =>
    cases hrun
    exact ⟨[], trivial, rfl⟩
  | cons a as ih =>
    obtain ⟨t, ht, hrun⟩ := exec_cons_some hrun
    obtain ⟨hP, hview⟩ := hstep s a t hs halong.1 ht
    obtain ⟨bs, hbs, hexec⟩ := ih hP (halong.2 t ht) hrun
    rcases hview with hview | ⟨b, hcond, hb⟩
    · rw [hview] at hbs hexec
      exact ⟨bs, hbs, hexec⟩
    refine ⟨b :: bs, ⟨hcond, fun t' ht' => ?_⟩, ?_⟩
    · cases hb.symm.trans ht'
      exact hbs
    · rw [exec, hb]
      exact hexec

end Run
