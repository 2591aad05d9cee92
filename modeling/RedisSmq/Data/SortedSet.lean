import Mathlib.Data.List.Sort
import Mathlib.Data.List.Nodup

/-!
# Sets sorted by score

A sorted set holds each member once, together with a score, and lists its
members by score and, among equal scores, by the order of the members. Both
facts are fields of the structure, so every set that can be built lists its
members in order and without repetition.
-/

universe u

/-- The order of the entries of a sorted set: by score, then by member. -/
def entryLe {α : Type u} [LinearOrder α] (x y : Nat × α) : Prop :=
  x.1 < y.1 ∨ x.1 = y.1 ∧ x.2 ≤ y.2

instance {α : Type u} [LinearOrder α] : DecidableRel (@entryLe α _) :=
  fun x y => inferInstanceAs (Decidable (x.1 < y.1 ∨ x.1 = y.1 ∧ x.2 ≤ y.2))

instance {α : Type u} [LinearOrder α] : Std.Total (@entryLe α _) where
  total x y := by
    unfold entryLe
    rcases lt_trichotomy x.1 y.1 with h | h | h
    · exact .inl (.inl h)
    · exact (le_total x.2 y.2).imp (fun h' => .inr ⟨h, h'⟩) (fun h' => .inr ⟨h.symm, h'⟩)
    · exact .inr (.inl h)

instance {α : Type u} [LinearOrder α] : IsTrans (Nat × α) entryLe where
  trans x y z := by
    unfold entryLe
    rintro (h | ⟨h, h'⟩) (k | ⟨k, k'⟩)
    · exact .inl (h.trans k)
    · exact .inl (k ▸ h)
    · exact .inl (h ▸ k)
    · exact .inr ⟨h.trans k, h'.trans k'⟩

/-- A set of members with scores, listed by score and then by member. -/
structure SortedSet (α : Type u) [LinearOrder α] where
  entries : List (Nat × α)
  sorted : entries.Pairwise entryLe
  nodup : (entries.map Prod.snd).Nodup

namespace SortedSet

variable {α : Type u} [LinearOrder α]
variable {z : SortedSet α} {a : α} {score : Nat}

theorem eq_of_entries {z z' : SortedSet α} (h : z.entries = z'.entries) : z = z' := by
  cases z
  cases z'
  cases h
  rfl

def empty : SortedSet α where
  entries := []
  sorted := List.Pairwise.nil
  nodup := List.nodup_nil

instance : Inhabited (SortedSet α) := ⟨empty⟩

instance : Membership α (SortedSet α) := ⟨fun z a => a ∈ z.entries.map Prod.snd⟩

instance (a : α) (z : SortedSet α) : Decidable (a ∈ z) :=
  inferInstanceAs (Decidable (a ∈ z.entries.map Prod.snd))

theorem mem_def : a ∈ z ↔ a ∈ z.entries.map Prod.snd := Iff.rfl

@[simp] theorem not_mem_empty (a : α) : a ∉ (empty : SortedSet α) := List.not_mem_nil

/-- Remove a member, whatever its score. -/
def rem (z : SortedSet α) (a : α) : SortedSet α where
  entries := z.entries.filter fun entry => entry.2 ≠ a
  sorted := z.sorted.filter _
  nodup := z.nodup.sublist (List.filter_sublist.map _)

@[simp] theorem mem_rem {a b : α} : b ∈ z.rem a ↔ b ∈ z ∧ b ≠ a := by
  simp only [mem_def, rem, List.mem_map, List.mem_filter, decide_eq_true_eq]
  constructor
  · rintro ⟨entry, ⟨hmem, hne⟩, rfl⟩
    exact ⟨⟨entry, hmem, rfl⟩, hne⟩
  · rintro ⟨⟨entry, hmem, rfl⟩, hne⟩
    exact ⟨entry, ⟨hmem, hne⟩, rfl⟩

theorem mem_entries_of_rem {entry : Nat × α} (h : entry ∈ (z.rem a).entries) : entry ∈ z.entries :=
  (List.mem_filter.1 h).1

/-- Give a member a score, replacing the score it had. -/
def add (z : SortedSet α) (score : Nat) (a : α) : SortedSet α where
  entries := (z.rem a).entries.orderedInsert entryLe (score, a)
  sorted := List.Pairwise.orderedInsert _ _ (z.rem a).sorted
  nodup := by
    have hperm := List.perm_orderedInsert entryLe (score, a) (z.rem a).entries
    rw [(hperm.map Prod.snd).nodup_iff, List.map_cons, List.nodup_cons]
    exact ⟨fun h => (mem_rem.1 (mem_def.2 h)).2 rfl, (z.rem a).nodup⟩

@[simp] theorem mem_add {a b : α} : b ∈ z.add score a ↔ b = a ∨ b ∈ z := by
  have hperm := List.perm_orderedInsert entryLe (score, a) (z.rem a).entries
  rw [mem_def, add, (hperm.map Prod.snd).mem_iff, List.map_cons, List.mem_cons, ← mem_def,
    mem_rem]
  by_cases h : b = a <;> simp [h]

/-- The other members keep their scores. -/
theorem mem_entries_add {entry : Nat × α} : entry ∈ (z.add score a).entries ↔
    entry = (score, a) ∨ entry ∈ z.entries ∧ entry.2 ≠ a := by
  rw [add, List.mem_orderedInsert, rem, List.mem_filter, decide_eq_true_iff]

/-- A new member makes the set larger by one. -/
theorem length_add (h : a ∉ z) : (z.add score a).entries.length = z.entries.length + 1 := by
  have hrem : (z.rem a).entries = z.entries := by
    apply List.filter_eq_self.2
    intro entry hentry
    apply decide_eq_true
    rintro rfl
    exact h (List.mem_map_of_mem hentry)
  have hperm := List.perm_orderedInsert entryLe (score, a) (z.rem a).entries
  rw [add, hperm.length_eq, List.length_cons, hrem]

/-- The member with the lowest score. -/
def first? (z : SortedSet α) : Option α :=
  z.entries.head?.map Prod.snd

theorem mem_of_first? (h : z.first? = some a) : a ∈ z := by
  obtain ⟨entry, hhead, rfl⟩ := Option.map_eq_some_iff.1 h
  exact List.mem_map_of_mem (List.mem_of_mem_head? hhead)

/-- The members whose score is at most `limit`, in order. -/
def upTo (z : SortedSet α) (limit : Nat) : List α :=
  (z.entries.filter fun entry => entry.1 ≤ limit).map Prod.snd

theorem mem_of_mem_upTo {limit : Nat} (h : a ∈ z.upTo limit) : a ∈ z := by
  obtain ⟨entry, hmem, rfl⟩ := List.mem_map.1 h
  exact List.mem_map_of_mem (List.mem_filter.1 hmem).1

end SortedSet
