import Mathlib.Data.List.AList

/-!
# Finite tables and the number of rows with a property

A table is an association list with distinct keys. The rows that satisfy a test
are counted by `Table.countRows`, and the two lemmas that matter say what one
write does to that number: writing a row replaces the contribution of the row
that was there, and erasing a row removes it. Everything a counter has to agree
with later is a consequence of these two equations.
-/

universe u v

/-- A finite map with distinct keys whose rows all have one type. -/
abbrev Table (α : Type u) (β : Type v) := AList fun _ : α => β

namespace Table

variable {α : Type u} {β : Type v} [DecidableEq α]

/-- The number of rows whose value passes the test. -/
def countRows (p : β → Bool) (t : Table α β) : Nat :=
  t.entries.countP fun row => p row.2

/-- What an optional row contributes to a count. -/
def weight (p : β → Bool) (row : Option β) : Nat :=
  if row.any p then 1 else 0

section

variable (p : β → Bool)

include p

@[simp] theorem weight_none : weight p none = 0 := rfl

@[simp] theorem weight_some (b : β) :
    weight p (some b) = if p b then 1 else 0 := by
  simp [weight]

private theorem countP_kerase (a : α) (l : List (Sigma fun _ : α => β)) :
    l.countP (fun row => p row.2) =
      (l.kerase a).countP (fun row => p row.2) + weight p (l.dlookup a) := by
  induction l with
  | nil => rfl
  | cons row l ih =>
    obtain ⟨k, b⟩ := row
    by_cases hk : a = k
    · subst hk
      simp [List.countP_cons]
    rw [List.kerase_cons_ne hk, List.dlookup_cons_ne _ _ hk]
    simp only [List.countP_cons, ih]
    omega

/-- Erasing a row takes away exactly what the row contributed. -/
theorem countRows_erase_add (a : α) (t : Table α β) :
    countRows p (t.erase a) + weight p (t.lookup a) = countRows p t :=
  (countP_kerase p a t.entries).symm

/-- Writing a row replaces the contribution of the row that had its key. -/
theorem countRows_insert_add (a : α) (b : β) (t : Table α β) :
    countRows p (t.insert a b) + weight p (t.lookup a) =
      countRows p t + weight p (some b) := by
  have herase := countRows_erase_add p a t
  have hinsert : countRows p (t.insert a b) = countRows p (t.erase a) + weight p (some b) := by
    change _ = (t.entries.kerase a).countP _ + _
    simp [countRows, AList.entries_insert, List.countP_cons]
  omega

/-- The rows that pass the test are counted by their keys. -/
theorem countRows_eq_length (t : Table α β) {keys : List α} (hnodup : keys.Nodup)
    (hmem : ∀ a, a ∈ keys ↔ ∃ b, t.lookup a = some b ∧ p b = true) :
    countRows p t = keys.length := by
  have hkeys : ((t.entries.filter fun row => p row.2).map Sigma.fst).Nodup :=
    List.NodupKeys.sublist List.filter_sublist t.nodupKeys
  have hperm : ((t.entries.filter fun row => p row.2).map Sigma.fst).Perm keys := by
    rw [List.perm_ext_iff_of_nodup hkeys hnodup]
    intro a
    rw [hmem, List.mem_map]
    constructor
    · rintro ⟨⟨a, b⟩, hrow, rfl⟩
      obtain ⟨hrow, hb⟩ := List.mem_filter.1 hrow
      exact ⟨b, AList.mem_lookup_iff.2 hrow, hb⟩
    · rintro ⟨b, hlookup, hb⟩
      exact ⟨⟨a, b⟩, List.mem_filter.2 ⟨AList.mem_lookup_iff.1 hlookup, hb⟩, rfl⟩
  rw [countRows, List.countP_eq_length_filter, ← hperm.length_eq, List.length_map]

end

/-- The rows are written one after the other. -/
def insertAll (rows : List (α × β)) (t : Table α β) : Table α β :=
  rows.foldl (fun t row => t.insert row.1 row.2) t

theorem lookup_insertAll_of_notMem {rows : List (α × β)} {a : α} (t : Table α β)
    (h : ∀ row ∈ rows, row.1 ≠ a) : (insertAll rows t).lookup a = t.lookup a := by
  induction rows generalizing t with
  | nil => rfl
  | cons row rows ih =>
    have hrow : a ≠ row.1 := (h row List.mem_cons_self).symm
    have hrows := ih (t.insert row.1 row.2) fun r hr => h r (List.mem_cons_of_mem row hr)
    exact hrows.trans (AList.lookup_insert_ne hrow)

/-- Rows with distinct keys do not overwrite each other. -/
theorem lookup_insertAll_of_mem {rows : List (α × β)} {a : α} {b : β} (t : Table α β)
    (hnodup : (rows.map Prod.fst).Nodup) (h : (a, b) ∈ rows) :
    (insertAll rows t).lookup a = some b := by
  induction rows generalizing t with
  | nil => cases h
  | cons row rows ih =>
    rw [List.map_cons, List.nodup_cons] at hnodup
    cases List.mem_cons.1 h with
    | inl hhead =>
      subst hhead
      have hrest : ∀ r ∈ rows, r.1 ≠ a := by
        intro r hr heq
        exact hnodup.1 (List.mem_map.2 ⟨r, hr, heq⟩)
      exact (lookup_insertAll_of_notMem _ hrest).trans (AList.lookup_insert t)
    | inr htail => exact ih (t.insert row.1 row.2) hnodup.2 htail

omit [DecidableEq α] in
/-- Leaving out rows leaves out their keys. -/
theorem keys_filterMap_sublist {γ : Type*} (key : γ → α) (value : γ → Option β) (l : List γ) :
    ((l.filterMap fun c => (value c).map fun b => (key c, b)).map Prod.fst).Sublist
      (l.map key) := by
  induction l with
  | nil => exact List.Sublist.refl []
  | cons c l ih =>
    cases hvalue : value c with
    | none =>
      rw [List.filterMap_cons_none (by rw [hvalue]; rfl), List.map_cons]
      exact ih.cons (key c)
    | some b =>
      rw [List.filterMap_cons_some (by rw [hvalue]; rfl), List.map_cons, List.map_cons]
      exact ih.cons_cons (key c)

end Table
