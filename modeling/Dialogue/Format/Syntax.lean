import Dialogue.Text.Cut
import Dialogue.Text.Integer
import Dialogue.Text.Letter

/-!
# Format functions

A format function stands in square brackets: a kind, a value, and any number of choices `key="text"`. A bracket without
one of the three kinds after it is an ordinary character.

The value is a string between double quotes or a run of characters up to a blank or `]`. Between quotes a backslash
makes the next one of `\`, `"` and `%` ordinary and drops any other character; a bare `%` stands for the value.

* `parse`: the format functions of a text, and the text with a numbered mark in the place of each.
-/

namespace Dialogue.Format

/-- **The kinds of format functions.** -/
inductive FunctionKind where
  /-- The value is the key. -/
  | select
  /-- The key is the category of a number that counts. -/
  | plural
  /-- The key is the category of a number that orders. -/
  | ordinal
deriving DecidableEq, Repr

namespace FunctionKind

/-- The kind of a given name. -/
def ofName? : String → Option FunctionKind
  | "select" => some .select
  | "plural" => some .plural
  | "ordinal" => some .ordinal
  | _ => none

end FunctionKind

/-- **A format function.** In its texts the value is marked by `valueMark`. -/
structure Function where
  kind : FunctionKind
  value : List Char
  choices : List (List Char × List Char)
deriving DecidableEq, Repr

/-- What is wrong in a format function. -/
inductive SyntaxFault where
  | noName
  | noValue
  | noString
  | openString
  | expected (c : Char)
  | endOfLine
  | duplicate (key : String)
deriving DecidableEq, Repr

/-- The place of the value in the text of a choice. -/
def valueMark : List Char := "<VALUE PLACEHOLDER>".toList

/-- Something read from the front of a text, and the characters that are left: fewer. -/
abbrev Front (α : Type) (cs : List Char) := { r : α × List Char // r.2.length < cs.length }

/-! ## Parts of a function -/

/-- The text from the next character on that is no blank; there has to be one. -/
def skipBlanks (cs : List Char) : Except SyntaxFault { r : List Char // r.length ≤ cs.length } :=
  if Text.trimStart cs = [] then .error .endOfLine
  else .ok ⟨Text.trimStart cs, Text.length_trimStart_le cs⟩

/-- A name starts with a letter or an underscore. -/
def startsName (c : Char) : Bool := Text.isLetter c || c = '_'

/-- A name goes on with these and with numerals. -/
def continuesName (c : Char) : Bool := startsName c || Text.isNumeral c

/-- **Reads a name.** -/
def readName (cs : List Char) : Except SyntaxFault (Front (List Char) cs) := do
  let ⟨rest, h⟩ ← skipBlanks cs
  match rest, h with
  | [], _ => .error .noName
  | c :: rest, h =>
    if startsName c then
      .ok ⟨(c :: rest.takeWhile continuesName, rest.dropWhile continuesName),
        Nat.lt_of_lt_of_le (Nat.lt_succ_of_le (List.dropWhile_sublist _).length_le) h⟩
    else .error .noName

/-- Reads one given character. -/
def readChar (expected : Char) (cs : List Char) : Except SyntaxFault (Front Unit cs) := do
  let ⟨rest, h⟩ ← skipBlanks cs
  match rest, h with
  | [], _ => .error (.expected expected)
  | c :: rest, h =>
    if c = expected then .ok ⟨((), rest), Nat.lt_of_lt_of_le (Nat.lt_succ_self _) h⟩
    else .error (.expected expected)

/-- The characters that a backslash makes ordinary. -/
def isEscapable (c : Char) : Bool := c = '\\' || c = '"' || c = '%'

/-- **Reads a string up to its closing quote**, or to the end of the text after a backslash there. -/
def stringBody? : (cs : List Char) → Option (Front (List Char) cs)
  | [] => none
  | '"' :: rest => some ⟨([], rest), by simp⟩
  | ['\\'] => some ⟨([], []), by simp⟩
  | '\\' :: c :: rest =>
    (stringBody? rest).map fun ⟨(s, after), h⟩ =>
      ⟨((if isEscapable c then [c] else []) ++ s, after), by simp only [List.length_cons] at *; omega⟩
  | c :: rest =>
    (stringBody? rest).map fun ⟨(s, after), h⟩ =>
      ⟨((if c = '%' then valueMark else [c]) ++ s, after), by simp only [List.length_cons] at *; omega⟩

/-- Reads a string. -/
def readString (cs : List Char) : Except SyntaxFault (Front (List Char) cs) := do
  let ⟨rest, h⟩ ← skipBlanks cs
  match rest, h with
  | '"' :: rest, h =>
    match stringBody? rest with
    | some ⟨r, h'⟩ => .ok ⟨r, by simp only [List.length_cons] at h; omega⟩
    | none => .error .openString
  | _, _ => .error .noString

/-- The characters of a value without quotes. -/
def continuesValue (c : Char) : Bool := !Text.isBlank c && c ≠ ']'

/-- **Reads a value.** -/
def readValue (cs : List Char) : Except SyntaxFault (Front (List Char) cs) := do
  let ⟨rest, h⟩ ← skipBlanks cs
  match rest, h with
  | [], _ => .error .noValue
  | c :: rest, h =>
    if c = '"' then
      let ⟨r, h'⟩ ← readString (c :: rest)
      return ⟨r, Nat.lt_of_lt_of_le h' h⟩
    else if continuesValue c then
      .ok ⟨(c :: rest.takeWhile continuesValue, rest.dropWhile continuesValue),
        Nat.lt_of_lt_of_le (Nat.lt_succ_of_le (List.dropWhile_sublist _).length_le) h⟩
    else .error .noValue

/-- The text after the closing bracket, when that comes next. -/
def readEnd? : (cs : List Char) → Option (Front Unit cs)
  | ']' :: rest => some ⟨((), rest), by simp⟩
  | _ => none

/-- **Reads choices up to the closing bracket.** `known` are the choices before them. -/
def readChoices (known : List (List Char × List Char)) (cs : List Char) :
    Except SyntaxFault (Front (List (List Char × List Char)) cs) := do
  let ⟨rest, h⟩ ← skipBlanks cs
  match readEnd? rest with
  | some ⟨((), rest'), h'⟩ => return ⟨(known, rest'), Nat.lt_of_lt_of_le h' h⟩
  | none => do
    let ⟨(key, rest₁), h₁⟩ ← readName rest
    let ⟨((), rest₂), h₂⟩ ← readChar '=' rest₁
    let ⟨(text, rest₃), h₃⟩ ← readString rest₂
    if (known.lookup key).isSome then .error (.duplicate (.ofList key))
    else
      let ⟨r, h'⟩ ← readChoices (known ++ [(key, text)]) rest₃
      return ⟨r, by simp only at *; omega⟩
termination_by cs.length
decreasing_by
  simp only at *
  omega

/-- **Reads a function after its kind.** -/
def readFunction (kind : FunctionKind) (cs : List Char) : Except SyntaxFault (Front Function cs) := do
  let ⟨(value, rest), h⟩ ← readValue cs
  let ⟨(choices, rest'), h'⟩ ← readChoices [] rest
  return ⟨(⟨kind, value, choices⟩, rest'), by simp only at *; omega⟩

/-- The kind that follows a bracket, if one does. -/
def readKind? (cs : List Char) : Option (Front FunctionKind cs) :=
  match readName cs with
  | .error _ => none
  | .ok ⟨(name, rest), h⟩ => (FunctionKind.ofName? (.ofList name)).map fun kind => ⟨(kind, rest), h⟩

/-! ## Texts with functions -/

/-- The mark of a function, by its number. -/
def functionMark (index : Nat) : List Char :=
  '\x7b' :: Text.natText index ++ ['\x7d']

/-- Reads the rest of a text; the functions in it are numbered from `index` on. -/
def parseFrom (index : Nat) (cs : List Char) : Except SyntaxFault (List Char × List Function) :=
  match cs with
  | [] => .ok ([], [])
  | c :: rest =>
    match if c = '[' then readKind? rest else none with
    | none => do
      let (text, functions) ← parseFrom index rest
      return (c :: text, functions)
    | some ⟨(kind, rest₁), _h₁⟩ => do
      let ⟨(function, rest₂), _h₂⟩ ← readFunction kind rest₁
      let (text, functions) ← parseFrom (index + 1) rest₂
      return (functionMark index ++ text, function :: functions)
termination_by cs.length
decreasing_by
  · simp
  · simp only [List.length_cons] at *
    omega

/-- **The functions of a text**, and the text with a mark in the place of each. -/
def parse (cs : List Char) : Except SyntaxFault (List Char × List Function) :=
  parseFrom 0 cs

end Dialogue.Format
