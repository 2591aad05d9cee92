import Mathlib.Tactic.TypeStar

/-!
# Batches with deferred writes

A batch takes its items one by one and adds up a tally of what it did. The writes
that depend only on the tally are made once, after the last item. A batch may be
cut anywhere if the writes of two tallies may be made one after the other, and if
the writes of a tally may be made before an item instead of after it. Both laws
are asked for only on the states of an invariant that the batch keeps.
-/

/-- One pass over a list of items. A failing command ends it with an error. -/
structure Batch (ι σ τ ε : Type*) where
  nothing : τ
  join : τ → τ → τ
  /-- One item: what it adds to the tally, and the state it leaves. -/
  step : ι → σ → Except ε (τ × σ)
  /-- The deferred writes of a tally. -/
  commit : τ → σ → Except ε σ

namespace Batch

variable {ι σ τ ε ρ : Type*}

section Definitions

variable (b : Batch ι σ τ ε)

def loop : List ι → σ → Except ε (τ × σ)
  | [], s => .ok (b.nothing, s)
  | i :: is, s =>
      match b.step i s with
      | .error e => .error e
      | .ok (t, s) =>
          match loop is s with
          | .error e => .error e
          | .ok (u, s) => .ok (b.join t u, s)

def run (is : List ι) (s : σ) : Except ε (τ × σ) :=
  match b.loop is s with
  | .error e => .error e
  | .ok (t, s) =>
      match b.commit t s with
      | .error e => .error e
      | .ok s => .ok (t, s)

/-- A batch behind a check that may answer at once. -/
def guarded (check : σ → Except ρ (Batch ι σ τ ε)) (reply : τ → ρ) (is : List ι) (s : σ) :
    Except ε (ρ × σ) :=
  match check s with
  | .error r => .ok (r, s)
  | .ok b =>
      match b.run is s with
      | .error e => .error e
      | .ok (t, s) => .ok (reply t, s)

/-- The batch may be cut in the states that satisfy `inv`. -/
structure Lawful (inv : σ → Prop) : Prop where
  nothing_join : ∀ t, b.join b.nothing t = t
  join_assoc : ∀ t u v, b.join (b.join t u) v = b.join t (b.join u v)
  step_inv : ∀ {i s t s'}, inv s → b.step i s = .ok (t, s') → inv s'
  commit_inv : ∀ {t s s'}, inv s → b.commit t s = .ok s' → inv s'
  commit_join : ∀ {t u s s₂}, inv s → b.commit (b.join t u) s = .ok s₂ →
    ∃ s₁, b.commit t s = .ok s₁ ∧ b.commit u s₁ = .ok s₂
  commit_step : ∀ {i t u s s' s₂}, inv s → b.step i s = .ok (u, s') → b.commit t s' = .ok s₂ →
    ∃ s₁, b.commit t s = .ok s₁ ∧ b.step i s₁ = .ok (u, s₂)

end Definitions

variable {b : Batch ι σ τ ε} {is js : List ι} {s s' : σ} {t : τ} {inv : σ → Prop}

theorem loop_cons_eq_ok {i : ι} :
    b.loop (i :: is) s = .ok (t, s') ↔
      ∃ u s₁ v, b.step i s = .ok (u, s₁) ∧ b.loop is s₁ = .ok (v, s') ∧ t = b.join u v := by
  constructor
  · intro h
    unfold loop at h
    cases hstep : b.step i s with
    | error e => simp [hstep] at h
    | ok r =>
      cases hloop : b.loop is r.2 with
      | error e => simp [hstep, hloop] at h
      | ok r' =>
        simp only [hstep, hloop, Except.ok.injEq, Prod.mk.injEq] at h
        exact ⟨r.1, r.2, r'.1, rfl, by rw [hloop, ← h.2], h.1.symm⟩
  · rintro ⟨u, s₁, v, hstep, hloop, rfl⟩
    simp only [loop, hstep, hloop]

theorem run_eq_ok :
    b.run is s = .ok (t, s') ↔ ∃ s₁, b.loop is s = .ok (t, s₁) ∧ b.commit t s₁ = .ok s' := by
  constructor
  · intro h
    unfold run at h
    cases hloop : b.loop is s with
    | error e => simp [hloop] at h
    | ok r =>
      cases hcommit : b.commit r.1 r.2 with
      | error e => simp [hloop, hcommit] at h
      | ok s₂ =>
        simp only [hloop, hcommit, Except.ok.injEq, Prod.mk.injEq] at h
        exact ⟨r.2, by rw [← h.1], by rw [← h.1, ← h.2, hcommit]⟩
  · rintro ⟨s₁, hloop, hcommit⟩
    simp only [run, hloop, hcommit]

namespace Lawful

variable (law : b.Lawful inv)

include law

theorem loop_inv (hs : inv s) (h : b.loop is s = .ok (t, s')) : inv s' := by
  induction is generalizing s t with
  | nil =>
    cases h
    exact hs
  | cons i is ih =>
    obtain ⟨u, s₁, v, hstep, hloop, -⟩ := loop_cons_eq_ok.1 h
    exact ih (law.step_inv hs hstep) hloop

theorem run_inv (hs : inv s) (h : b.run is s = .ok (t, s')) : inv s' := by
  obtain ⟨s₁, hloop, hcommit⟩ := run_eq_ok.1 h
  exact law.commit_inv (law.loop_inv hs hloop) hcommit

theorem loop_append (h : b.loop (is ++ js) s = .ok (t, s')) :
    ∃ u s₁ v, b.loop is s = .ok (u, s₁) ∧ b.loop js s₁ = .ok (v, s') ∧ t = b.join u v := by
  induction is generalizing s t with
  | nil => exact ⟨b.nothing, s, t, rfl, h, (law.nothing_join t).symm⟩
  | cons i is ih =>
    obtain ⟨u, s₁, v, hstep, hloop, rfl⟩ := loop_cons_eq_ok.1 h
    obtain ⟨u', s₂, v', his, hjs, rfl⟩ := ih hloop
    exact ⟨_, s₂, v', loop_cons_eq_ok.2 ⟨u, s₁, u', hstep, his, rfl⟩, hjs,
      (law.join_assoc u u' v').symm⟩

/-- The deferred writes of an earlier tally may be made before the items. -/
theorem commit_loop {u : τ} {s₂ : σ} (hs : inv s) (h : b.loop is s = .ok (u, s'))
    (hcommit : b.commit t s' = .ok s₂) :
    ∃ s₁, b.commit t s = .ok s₁ ∧ b.loop is s₁ = .ok (u, s₂) := by
  induction is generalizing s u with
  | nil =>
    cases h
    exact ⟨s₂, hcommit, rfl⟩
  | cons i is ih =>
    obtain ⟨v, s₃, w, hstep, hloop, rfl⟩ := loop_cons_eq_ok.1 h
    obtain ⟨s₄, hcommit₃, hloop₄⟩ := ih (law.step_inv hs hstep) hloop
    obtain ⟨s₁, hcommit₁, hstep₁⟩ := law.commit_step hs hstep hcommit₃
    exact ⟨s₁, hcommit₁, loop_cons_eq_ok.2 ⟨v, s₄, w, hstep₁, hloop₄, rfl⟩⟩

/-- A batch that ends may be cut in two. -/
theorem run_append (hs : inv s) (h : b.run (is ++ js) s = .ok (t, s')) :
    ∃ u s₁ v, b.run is s = .ok (u, s₁) ∧ b.run js s₁ = .ok (v, s') ∧ t = b.join u v := by
  obtain ⟨s₃, hloop, hcommit⟩ := run_eq_ok.1 h
  obtain ⟨u, s₂, v, his, hjs, rfl⟩ := law.loop_append hloop
  have hs₂ := law.loop_inv hs his
  obtain ⟨s₄, hcommit₄, hcommit'⟩ := law.commit_join (law.loop_inv hs₂ hjs) hcommit
  obtain ⟨s₁, hcommit₁, hjs₁⟩ := law.commit_loop hs₂ hjs hcommit₄
  exact ⟨u, s₁, v, run_eq_ok.2 ⟨s₂, his, hcommit₁⟩, run_eq_ok.2 ⟨s₄, hjs₁, hcommit'⟩, rfl⟩

end Lawful

/-- A batch behind a check may be cut in two if it keeps the answer of the check. -/
theorem guarded_append {check : σ → Except ρ (Batch ι σ τ ε)} {reply : τ → ρ} {combine : ρ → ρ → ρ}
    (hlaw : ∀ s b, check s = .ok b → Lawful b fun s => check s = .ok b)
    (hrefuse : ∀ s r, check s = .error r → combine r r = r)
    (hreply : ∀ s b, check s = .ok b → ∀ t u,
      reply (b.join t u) = combine (reply t) (reply u))
    {r : ρ} (h : guarded check reply (is ++ js) s = .ok (r, s')) :
    ∃ r₁ s₁ r₂, guarded check reply is s = .ok (r₁, s₁) ∧
      guarded check reply js s₁ = .ok (r₂, s') ∧ r = combine r₁ r₂ := by
  unfold guarded at h
  cases hcheck : check s with
  | error r' =>
    simp only [hcheck, Except.ok.injEq, Prod.mk.injEq] at h
    obtain ⟨rfl, rfl⟩ := h
    exact ⟨r', s, r', by simp only [guarded, hcheck], by simp only [guarded, hcheck],
      (hrefuse s r' hcheck).symm⟩
  | ok b =>
    cases hrun : b.run (is ++ js) s with
    | error e => simp [hcheck, hrun] at h
    | ok p =>
      simp only [hcheck, hrun, Except.ok.injEq, Prod.mk.injEq] at h
      obtain ⟨rfl, rfl⟩ := h
      have law := hlaw s b hcheck
      obtain ⟨u, s₁, v, his, hjs, hjoin⟩ := law.run_append hcheck hrun
      have hcheck₁ := law.run_inv hcheck his
      refine ⟨reply u, s₁, reply v, ?_, ?_, ?_⟩
      · simp only [guarded, hcheck, his]
      · simp only [guarded, hcheck₁, hjs]
      · rw [hjoin, hreply s b hcheck]

end Batch
