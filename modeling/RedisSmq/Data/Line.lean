import Mathlib.Data.List.Basic
import Mathlib.Data.List.Pairwise

/-!
# Waiting lines

A line is a list that is served from its right end. A newcomer enters at the left
end, as in a queue, or at the right end, as on a stack. An element that was served
before and comes back always enters at the right end, and any element may be taken
out of the middle. The list itself knows only identifiers. A line with a memory
numbers the entrances and marks those who come back, and its order is stated in
these terms: who is served next depends on the entrances only, not on the list.
-/

universe u

namespace Line

/-- Where newcomers enter. -/
inductive Discipline where
  | queue
  | stack
  deriving DecidableEq, Repr

/-- What can happen to a line. -/
inductive Event (ι : Type u) where
  | enter (i : ι)
  | retry (i : ι)
  | remove (i : ι)
  | pop
  deriving DecidableEq, Repr

/-- An entrance: whose it was, its number, and whether it was a return. -/
structure Entry (ι : Type u) where
  id : ι
  number : Nat
  retried : Bool
  deriving DecidableEq, Repr

/-- The line with its memory: who is waiting, in the order of the list, who was
served, in the order of service, and the number of entrances. -/
structure Memory (ι : Type u) where
  waiting : List (Entry ι)
  served : List (Entry ι)
  entered : Nat

variable {ι : Type u}

/-- A line in which nobody has waited yet. -/
def Memory.empty : Memory ι where
  waiting := []
  served := []
  entered := 0

section Follow

variable [DecidableEq ι] (d : Discipline)

/-- What an event does to the list. -/
def onList (l : List ι) : Event ι → List ι
  | .enter i =>
      match d with
      | .queue => i :: l
      | .stack => l ++ [i]
  | .retry i => l ++ [i]
  | .remove i => l.erase i
  | .pop => l.dropLast

/-- The same with the memory. -/
def Memory.follow (m : Memory ι) : Event ι → Memory ι
  | .enter i =>
      let e : Entry ι := ⟨i, m.entered, false⟩
      { m with
        waiting :=
          match d with
          | .queue => e :: m.waiting
          | .stack => m.waiting ++ [e]
        entered := m.entered + 1 }
  | .retry i =>
      { m with waiting := m.waiting ++ [⟨i, m.entered, true⟩], entered := m.entered + 1 }
  | .remove i => { m with waiting := m.waiting.eraseP fun e => decide (e.id = i) }
  | .pop =>
      { m with waiting := m.waiting.dropLast, served := m.served ++ m.waiting.getLast?.toList }

/-- The memory follows the list. -/
theorem Memory.ids_follow (m : Memory ι) (ev : Event ι) :
    (m.follow d ev).waiting.map Entry.id = onList d (m.waiting.map Entry.id) ev := by
  cases ev with
  | enter i => cases d <;> simp [follow, onList]
  | retry i => simp [follow, onList]
  | remove i =>
    simp only [follow, onList, List.erase_eq_eraseP, List.eraseP_map]
    congr 2
    funext e
    by_cases he : e.id = i
    · simp [he]
    · simp [he, Ne.symm he]
  | pop => simp [follow, onList, List.map_dropLast]

theorem Memory.ids_foldl (m : Memory ι) (events : List (Event ι)) :
    (events.foldl (Memory.follow d) m).waiting.map Entry.id =
      events.foldl (onList d) (m.waiting.map Entry.id) := by
  induction events generalizing m with
  | nil => rfl
  | cons ev events ih => rw [List.foldl_cons, List.foldl_cons, ih, Memory.ids_follow]

end Follow

/-- The first entry is to be served before the second one. In a queue, those who come
back go first, the latest of them at the head, and newcomers keep their order. -/
def Precedes (d : Discipline) (e e' : Entry ι) : Prop :=
  match d with
  | .queue =>
      if e.retried then e'.retried = false ∨ e'.number < e.number
      else e'.retried = false ∧ e.number < e'.number
  | .stack => e'.number < e.number

/-- The list is in the order of service, from its right end on, and in a queue the
newcomers that were served came before all that are waiting. -/
structure Ordered (d : Discipline) (m : Memory ι) : Prop where
  numbered : ∀ e ∈ m.waiting, e.number < m.entered
  sorted : m.waiting.Pairwise fun e' e => Precedes d e e'
  ahead : d = .queue → ∀ e ∈ m.served, e.retried = false →
    e.number < m.entered ∧ ∀ e' ∈ m.waiting, e'.retried = false → e.number < e'.number
  inOrder : d = .queue →
    (m.served.filter fun e => !e.retried).Pairwise fun e e' => e.number < e'.number

namespace Ordered

variable {d : Discipline} {m : Memory ι}

theorem empty (d : Discipline) : Ordered d (Memory.empty : Memory ι) where
  numbered := by simp [Memory.empty]
  sorted := .nil
  ahead := by simp [Memory.empty]
  inOrder := by simp [Memory.empty]

/-- The one at the right end is to be served before all others. -/
theorem last (h : Ordered d m) {rest : List (Entry ι)} {e : Entry ι}
    (hm : m.waiting = rest ++ [e]) : ∀ e' ∈ rest, Precedes d e e' := by
  have hsorted := h.sorted
  rw [hm, List.pairwise_append] at hsorted
  intro e' he'
  exact hsorted.2.2 e' he' e List.mem_cons_self

variable [DecidableEq ι]

section

variable (h : Ordered d m)

include h

theorem enter (i : ι) : Ordered d (m.follow d (.enter i)) := by
  cases d with
  | queue =>
    refine ⟨?_, ?_, ?_, h.inOrder⟩
    · intro e he
      rcases List.mem_cons.1 he with rfl | he
      · exact Nat.lt_succ_self _
      · exact Nat.lt_succ_of_lt (h.numbered e he)
    · refine List.pairwise_cons.2 ⟨?_, h.sorted⟩
      intro e he
      have hnumber := h.numbered e he
      cases hretried : e.retried with
      | true => simp [Precedes, hretried]
      | false => simpa [Precedes, hretried] using hnumber
    · intro _ e he hfresh
      obtain ⟨hlt, hahead⟩ := h.ahead rfl e he hfresh
      refine ⟨Nat.lt_succ_of_lt hlt, ?_⟩
      intro e' he' hfresh'
      rcases List.mem_cons.1 he' with rfl | he'
      · exact hlt
      · exact hahead e' he' hfresh'
  | stack =>
    refine ⟨?_, ?_, ?_, ?_⟩
    · intro e he
      rcases List.mem_append.1 he with he | he
      · exact Nat.lt_succ_of_lt (h.numbered e he)
      · rw [List.mem_singleton.1 he]
        exact Nat.lt_succ_self _
    · refine List.pairwise_append.2 ⟨h.sorted, List.pairwise_singleton _ _, ?_⟩
      intro e he e' he'
      rw [List.mem_singleton.1 he']
      exact h.numbered e he
    · intro hd
      cases hd
    · intro hd
      cases hd

theorem retry (i : ι) : Ordered d (m.follow d (.retry i)) where
  numbered := by
    intro e he
    rcases List.mem_append.1 he with he | he
    · exact Nat.lt_succ_of_lt (h.numbered e he)
    · rw [List.mem_singleton.1 he]
      exact Nat.lt_succ_self _
  sorted := by
    refine List.pairwise_append.2 ⟨h.sorted, List.pairwise_singleton _ _, ?_⟩
    intro e he e' he'
    have hnumber := h.numbered e he
    rw [List.mem_singleton.1 he']
    cases d with
    | queue => exact .inr hnumber
    | stack => exact hnumber
  ahead := by
    intro hd e he hfresh
    obtain ⟨hlt, hahead⟩ := h.ahead hd e he hfresh
    refine ⟨Nat.lt_succ_of_lt hlt, ?_⟩
    intro e' he' hfresh'
    rcases List.mem_append.1 he' with he' | he'
    · exact hahead e' he' hfresh'
    · rw [List.mem_singleton.1 he'] at hfresh'
      cases hfresh'
  inOrder := h.inOrder

theorem remove (i : ι) : Ordered d (m.follow d (.remove i)) := by
  have hsub : (m.follow d (.remove i)).waiting.Sublist m.waiting := List.eraseP_sublist
  refine ⟨?_, h.sorted.sublist hsub, ?_, h.inOrder⟩
  · intro e he
    exact h.numbered e (hsub.subset he)
  intro hd e he hfresh
  obtain ⟨hlt, hahead⟩ := h.ahead hd e he hfresh
  exact ⟨hlt, fun e' he' => hahead e' (hsub.subset he')⟩

/-- A newcomer is served only when no other newcomer has waited longer, so those who
are served come in the order of their entrances. -/
theorem pop : Ordered d (m.follow d .pop) := by
  rcases List.eq_nil_or_concat m.waiting with hnil | ⟨rest, e, hm⟩
  · have hsame : m.follow d .pop = m := by
      obtain ⟨waiting, served, entered⟩ := m
      simp only at hnil
      simp [Memory.follow, hnil]
    rw [hsame]
    exact h
  · rw [List.concat_eq_append] at hm
    have hwaiting : (m.follow d .pop).waiting = rest := by simp [Memory.follow, hm]
    have hserved : (m.follow d .pop).served = m.served ++ [e] := by simp [Memory.follow, hm]
    have hrest : ∀ e' ∈ rest, e' ∈ m.waiting := fun e' he' =>
      hm ▸ List.mem_append_left _ he'
    have he : e ∈ m.waiting := hm ▸ List.mem_append_right _ List.mem_cons_self
    refine ⟨?_, ?_, ?_, ?_⟩
    · rw [hwaiting]
      exact fun e' he' => h.numbered e' (hrest e' he')
    · rw [hwaiting]
      have hsorted := h.sorted
      rw [hm, List.pairwise_append] at hsorted
      exact hsorted.1
    · rw [hwaiting, hserved]
      intro hd e₀ he₀ hfresh
      rcases List.mem_append.1 he₀ with he₀ | he₀
      · obtain ⟨hlt, hahead⟩ := h.ahead hd e₀ he₀ hfresh
        exact ⟨hlt, fun e' he' => hahead e' (hrest e' he')⟩
      rw [List.mem_singleton.1 he₀] at hfresh ⊢
      refine ⟨h.numbered e he, ?_⟩
      intro e' he' _
      have hprecedes := h.last hm e' he'
      subst hd
      simp only [Precedes, hfresh, Bool.false_eq_true, if_false] at hprecedes
      exact hprecedes.2
    · rw [hserved]
      intro hd
      rw [List.filter_append, List.pairwise_append]
      refine ⟨h.inOrder hd, ?_, ?_⟩
      · cases hretried : e.retried <;> simp [hretried]
      intro e₀ he₀ e' he'
      obtain ⟨he₀, hfresh⟩ := List.mem_filter.1 he₀
      obtain ⟨he', hfresh'⟩ := List.mem_filter.1 he'
      rw [List.mem_singleton.1 he'] at hfresh' ⊢
      exact (h.ahead hd e₀ he₀ (by simpa using hfresh)).2 e he (by simpa using hfresh')

theorem follow (ev : Event ι) : Ordered d (m.follow d ev) := by
  cases ev with
  | enter i => exact h.enter i
  | retry i => exact h.retry i
  | remove i => exact h.remove i
  | pop => exact h.pop

theorem foldl (events : List (Event ι)) : Ordered d (events.foldl (Memory.follow d) m) := by
  induction events generalizing m with
  | nil => exact h
  | cons ev events ih => exact ih (h.follow ev)

end

end Ordered

end Line
