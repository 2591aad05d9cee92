import Mathlib.Data.List.Basic

/-!
# Texts made of segments

A path is a text to which segments are appended, each behind a separator. A segment may
itself hold separators. What a path determines is then the list of its pieces, that is of
the texts between two separators. A segment without separators is one piece, and the pieces
of any segment determine the segment.
-/

namespace Segments

variable (sep : Char)

/-- The text with the segments appended. -/
def path (start : String) (parts : List String) : String :=
  parts.foldl (fun text part => text ++ String.ofList [sep] ++ part) start

/-- The pieces between the separators. -/
def pieces (text : String) : List String := (text.toList.splitOn sep).map String.ofList

theorem pieces_injective : Function.Injective (pieces sep) := by
  intro s t h
  have hofList : Function.Injective String.ofList := by
    intro l l' hl
    rw [← @String.toList_ofList l, hl, String.toList_ofList]
  have hsplit : s.toList.splitOn sep = t.toList.splitOn sep := List.map_injective_iff.2 hofList h
  have hlist : s.toList = t.toList := by
    rw [← @List.intercalate_splitOn _ s.toList _ _ sep, hsplit, List.intercalate_splitOn]
  exact String.toList_injective hlist

variable {sep}

theorem pieces_of_notMem {text : String} (h : sep ∉ text.toList) : pieces sep text = [text] := by
  unfold pieces
  rw [List.splitOn_eq_singleton h, List.map_singleton, String.ofList_toList]

theorem pieces_append (s t : String) :
    pieces sep (s ++ String.ofList [sep] ++ t) = pieces sep s ++ pieces sep t := by
  have htext : (s ++ String.ofList [sep] ++ t).toList = s.toList ++ sep :: t.toList := by
    simp
  unfold pieces
  rw [htext, ← List.map_append]
  exact congrArg _ (List.splitOnP_append_cons s.toList t.toList (beq_self_eq_true sep))

/-- The pieces of a path are those of its start and of its segments. -/
theorem pieces_path (start : String) (parts : List String) :
    pieces sep (path sep start parts) = pieces sep start ++ parts.flatMap (pieces sep) := by
  induction parts generalizing start with
  | nil => simp [path]
  | cons part parts ih =>
    have hpath : path sep start (part :: parts) =
        path sep (start ++ String.ofList [sep] ++ part) parts := rfl
    rw [hpath, ih, pieces_append, List.flatMap_cons, List.append_assoc]

/-- Two paths from one start are equal just if their segments have the same pieces. -/
theorem path_eq_iff {start : String} {parts parts' : List String} :
    path sep start parts = path sep start parts' ↔
      parts.flatMap (pieces sep) = parts'.flatMap (pieces sep) := by
  rw [← (pieces_injective sep).eq_iff, pieces_path, pieces_path, List.append_cancel_left_eq]

end Segments
