import Dialogue.Expr.Parser
import Dialogue.Text.Cut

/-!
# Templates

A text of a script may hold expressions in braces. It is cut from left to right at each `{` and the first `}` after it; a
piece whose inside is an expression is a hole, all else is text. In the template the holes are numbered from 0 and stand
as `{0}`, `{1}` and so on.

* `flatten_pieces`: the pieces are the whole text.
-/

namespace Dialogue

/-- **A text with holes**, and the expressions that fill them. -/
structure Template where
  text : String
  holes : List Expr
deriving Inhabited

namespace Template

/-- A piece of a text. -/
inductive Piece where
  | literal (cs : List Char)
  | braces (inside : List Char)
  /-- An opening brace that is never closed, and what follows it. -/
  | unclosed (rest : List Char)
deriving DecidableEq, Repr

/-- The characters of a piece. -/
def Piece.toList : Piece → List Char
  | .literal cs => cs
  | .braces inside => '{' :: inside ++ ['}']
  | .unclosed rest => '{' :: rest

/-- **The pieces of a text.** -/
def pieces (cs : List Char) : List Piece :=
  match _h : Text.cut? ['{'] cs with
  | none => [.literal cs]
  | some (before, after) =>
    match _h' : Text.cut? ['}'] after with
    | none => [.literal before, .unclosed after]
    | some (inside, rest) => .literal before :: .braces inside :: pieces rest
termination_by cs.length
decreasing_by
  have h₁ := Text.length_of_cut?_eq_some _h
  have h₂ := Text.length_of_cut?_eq_some _h'
  simp only [List.length_singleton] at *
  omega

/-- **What is wrong with a text in braces.** -/
inductive Fault where
  | unclosed
  | badHole (fault : ExprFault)
deriving DecidableEq

namespace Fault

def message : Fault → String
  | .unclosed => "inline expression is missing its closing '\x7d'"
  | .badHole fault => "bad inline expression: " ++ fault.message

end Fault

/-- The number of a hole between braces. -/
def marker (index : Nat) : List Char :=
  '{' :: Text.natText index ++ ['}']

/-- Builds a template from pieces, its holes numbered from `index` on. -/
def build (index : Nat) : List Piece → List Char × List Expr × List Fault
  | [] => ([], [], [])
  | .literal cs :: rest =>
    let (text, holes, faults) := build index rest
    (cs ++ text, holes, faults)
  | .unclosed cs :: rest =>
    let (text, holes, faults) := build index rest
    ('{' :: cs ++ text, holes, .unclosed :: faults)
  | .braces inside :: rest =>
    match Expr.parse inside with
    | .ok expr =>
      let (text, holes, faults) := build (index + 1) rest
      (marker index ++ text, expr :: holes, faults)
    | .error fault =>
      let (text, holes, faults) := build index rest
      ('{' :: inside ++ '}' :: text, holes, .badHole fault :: faults)

/-- **The template of a text**, and what is wrong in it. -/
def ofText (cs : List Char) : Template × List Fault :=
  let (text, holes, faults) := build 0 (pieces cs)
  (⟨.ofList text, holes⟩, faults)

/-! ## Laws -/

theorem flatten_pieces (cs : List Char) : (pieces cs).flatMap Piece.toList = cs := by
  fun_induction pieces cs with
  | case1 => simp [Piece.toList]
  | case2 cs before after h h' => simp [Piece.toList, Text.eq_of_cut?_eq_some h]
  | case3 cs before after h inside rest h' ih =>
    simp [Piece.toList, Text.eq_of_cut?_eq_some h, Text.eq_of_cut?_eq_some h', ih]

end Template

end Dialogue
