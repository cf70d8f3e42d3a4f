import Dialogue.Text.Blank

/-!
# Lines

A line ends at `\n`, and one `\r` before that `\n` belongs to the line end. The last line may lack its `\n`; then a `\r`
at its end is an ordinary character. An empty last line is no line.

* `lines_append_newline`: a text that starts with a complete line has that line first.
-/

namespace Dialogue.Text

/-- The line without the one `\r` that may end it. -/
def dropReturn (line : List Char) : List Char :=
  match line.reverse with
  | '\r' :: rest => rest.reverse
  | _ => line

/-- **The lines of a text**, without their line ends. -/
def lines (cs : List Char) : List (List Char) :=
  let pieces := cs.splitOn '\n'
  pieces.dropLast.map dropReturn ++ pieces.getLast?.toList.filter (· ≠ [])

/-- The lines with their numbers, counted from 1. -/
def numberedLines (cs : List Char) : List (Nat × List Char) :=
  ((lines cs).zipIdx 1).map Prod.swap

/-! ## Laws -/

@[simp] theorem lines_nil : lines [] = [] := rfl

theorem lines_append_newline {line : List Char} (h : '\n' ∉ line) (rest : List Char) :
    lines (line ++ '\n' :: rest) = dropReturn line :: lines rest := by
  have hne := List.splitOn_ne_nil '\n' rest
  simp [lines, List.splitOn_append_cons_self_of_not_mem h, List.dropLast_cons_of_ne_nil hne,
    List.getLast?_cons_of_ne_nil hne]

end Dialogue.Text
