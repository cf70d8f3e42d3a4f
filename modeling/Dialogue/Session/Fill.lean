import Dialogue.Expr.Token
import Dialogue.Text.Integer
import Dialogue.Variables.Basic

/-!
# Filling templates

The text of a template is read once, from left to right. A number in braces takes the value of the hole with that number,
a `$` with a name after it takes the text of the variable. Where there is no such hole or variable the text stays, and what
is filled in is never read again.

* `flatMap_spelled_parts`: the parts of a text spell it.
-/

namespace Dialogue.Fill

/-- **A part of a text**: a character, a number in braces, or a `$` with a name. -/
inductive Part where
  | char (c : Char)
  | hole (digits : List Char)
  | variable (name : List Char)
deriving DecidableEq, Repr

/-- How a part is written. -/
def Part.spelled : Part → List Char
  | .char c => [c]
  | .hole digits => '\x7b' :: digits ++ ['\x7d']
  | .variable name => '$' :: name

/-- The digits before a closing brace, and the text after it. -/
def hole? (cs : List Char) : Option (List Char × List Char) :=
  match cs.takeWhile Char.isDigit, cs.dropWhile Char.isDigit with
  | d :: digits, '\x7d' :: rest => some (d :: digits, rest)
  | _, _ => none

/-- The name at the start of a text, and the text after it. -/
def name? : List Char → Option (List Char × List Char)
  | [] => none
  | c :: rest =>
    if Token.startsName c then some (c :: rest.takeWhile Token.continuesName, rest.dropWhile Token.continuesName)
    else none

theorem eq_of_hole? {cs digits rest : List Char} (h : hole? cs = some (digits, rest)) :
    cs = digits ++ '\x7d' :: rest := by
  unfold hole? at h
  split at h
  · rename_i h₁ h₂
    cases h
    rw [← h₁, ← h₂, List.takeWhile_append_dropWhile]
  · cases h

theorem eq_of_name? {cs name rest : List Char} (h : name? cs = some (name, rest)) : cs = name ++ rest := by
  cases cs with
  | nil => cases h
  | cons c cs =>
    simp only [name?] at h
    split at h
    · cases h
      simp [List.takeWhile_append_dropWhile]
    · cases h

/-- **The parts of a text.** -/
def parts (cs : List Char) : List Part :=
  match cs with
  | [] => []
  | c :: rest =>
    match _h : if c = '\x7b' then hole? rest else none with
    | some (digits, rest') => .hole digits :: parts rest'
    | none =>
      match _h' : if c = '$' then name? rest else none with
      | some (name, rest') => .variable name :: parts rest'
      | none => .char c :: parts rest
termination_by cs.length
decreasing_by
  · split at _h
    · simp only [eq_of_hole? _h, List.length_cons, List.length_append]
      omega
    · cases _h
  · split at _h'
    · simp only [eq_of_name? _h', List.length_cons, List.length_append]
      omega
    · cases _h'
  · simp

/-- What a part shows. -/
def Part.shown (values : List String) (vars : Variables) (part : Part) : List Char :=
  match part with
  | .char c => [c]
  | .hole digits => (values[Nat.ofDigitChars 10 digits 0]?).elim part.spelled String.toList
  | .variable name => (vars.get? (.ofList ('$' :: name))).elim part.spelled fun value => value.text.toList

/-- **The text with its holes and variables filled in.** -/
def fill (text : String) (values : List String) (vars : Variables) : String :=
  .ofList ((parts text.toList).flatMap (Part.shown values vars))

/-! ## Laws -/

theorem flatMap_spelled_parts (cs : List Char) : (parts cs).flatMap Part.spelled = cs := by
  fun_induction parts cs with
  | case1 => rfl
  | case2 c rest digits rest' h ih =>
    split at h
    · rename_i hc
      simp [Part.spelled, ih, hc, eq_of_hole? h]
    · cases h
  | case3 c rest _ name rest' h ih =>
    split at h
    · rename_i hc
      simp [Part.spelled, ih, hc, eq_of_name? h]
    · cases h
  | case4 c rest _ _ ih => simp [Part.spelled, ih]

end Dialogue.Fill
