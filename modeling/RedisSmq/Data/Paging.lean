import Mathlib.Data.List.Basic

/-!
# Reading a list page by page

A source gives a window into a list: the elements from an offset on, at most a fixed
number of them, and whether there are more behind them. The loop that goes on at the end
of each window, for as long as there is more, gives the whole list.
-/

universe u v

namespace Paging

variable {α : Type u} {ε : Type v}
variable {l : List α}

/-- A page: the elements and whether there are more. -/
structure Page (α : Type u) where
  items : List α
  hasMore : Bool

/-- The loop over the pages from an offset on, which stops at the first error; there is no
result if the fuel does not suffice. -/
def collect (page : Int → Except ε (Page α)) : Nat → Int → Option (Except ε (List α))
  | 0, _ => none
  | fuel + 1, offset =>
      match page offset with
      | .error e => some (.error e)
      | .ok p =>
          if p.hasMore then
            (collect page fuel (offset + p.items.length)).map (Except.map (p.items ++ ·))
          else some (.ok p.items)

/-- The window of `l` with at most `n` elements from an offset on. -/
def window (l : List α) (n offset : Nat) : Page α :=
  let items := (l.drop offset).take n
  ⟨items, decide (offset + items.length < l.length)⟩

/-- The source gives windows of the list, at every offset within it. -/
def Windows (page : Int → Except ε (Page α)) (l : List α) (n : Nat) : Prop :=
  ∀ offset : Nat, offset ≤ l.length → page offset = .ok (window l n offset)

/-- A window that is followed by more is full. -/
theorem length_window {n offset : Nat} (h : (window l n offset).hasMore = true) :
    (window l n offset).items.length = n ∧ offset + n < l.length := by
  have hmore : offset + ((l.drop offset).take n).length < l.length := of_decide_eq_true h
  rw [List.length_take, List.length_drop] at hmore
  have hlength : ((l.drop offset).take n).length = n := by
    rw [List.length_take, List.length_drop]
    omega
  exact ⟨hlength, by omega⟩

/-- A window that is not followed by more is the rest of the list. -/
theorem items_window {n offset : Nat} (hoffset : offset ≤ l.length)
    (h : (window l n offset).hasMore = false) : (window l n offset).items = l.drop offset := by
  have hmore : ¬ offset + ((l.drop offset).take n).length < l.length := of_decide_eq_false h
  rw [List.length_take, List.length_drop] at hmore
  exact List.take_of_length_le (by rw [List.length_drop]; omega)

/-- Nonempty windows of a list, read one after the other, are the list. -/
theorem collect_eq {page : Int → Except ε (Page α)} {n : Nat} (hn : 1 ≤ n)
    (hpage : Windows page l n) :
    ∀ fuel offset : Nat, offset ≤ l.length → l.length - offset < fuel →
      collect page fuel offset = some (.ok (l.drop offset)) := by
  intro fuel
  induction fuel with
  | zero =>
    intro offset _ hfuel
    exact absurd hfuel (Nat.not_lt_zero _)
  | succ fuel ih =>
    intro offset hoffset hfuel
    rw [collect, hpage offset hoffset]
    dsimp only
    cases hmore : (window l n offset).hasMore with
    | false => simp [items_window hoffset hmore]
    | true =>
      obtain ⟨hlength, hlt⟩ := length_window hmore
      have hrest := ih (offset + n) (Nat.le_of_lt hlt) (by omega)
      rw [if_pos rfl, hlength, ← Int.natCast_add, hrest]
      have hsplit : (window l n offset).items ++ l.drop (offset + n) = l.drop offset := by
        rw [window, ← List.drop_drop, List.take_append_drop]
      simp only [Option.map_some, Except.map, hsplit]

end Paging
