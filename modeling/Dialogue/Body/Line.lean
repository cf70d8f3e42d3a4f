import Dialogue.Body.Statement
import Dialogue.Body.Tags
import Dialogue.Text.Line

/-!
# Lines of a body

Blank lines and lines that start with `//` are no part of a script. Every other line is read on its own, whatever
surrounds it: as a part of a conditional, as the header of an option, or as statements. How the lines nest is not
decided here.

* `Item.read`: what a line is.
-/

namespace Dialogue

/-- **What a line is.** -/
inductive Item where
  /-- The first line of a conditional. -/
  | opening (condition : Expr)
  /-- The first line of a further branch. -/
  | branch (condition : Option Expr)
  /-- The last line of a conditional. -/
  | closing
  | option (text : Template) (condition : Option Expr) (tags : List String)
  | plain (statements : List Statement)
deriving Inhabited

/-- Something read from a line, and what is to be reported about it. -/
abbrev Noted (α : Type) := α × List BodyFault

namespace Item

/-! ## Commands -/

/-- The inside of a line that is one command. -/
def commandInside? (text : List Char) : Option (List Char) :=
  match Text.dropPrefix? ['<', '<'] text with
  | some rest => (Text.dropSuffix? ['>', '>'] rest).map Text.trim
  | none => none

/-- The first word of a command and the rest of it. -/
def splitKeyword (inside : List Char) : List Char × List Char :=
  (inside.takeWhile (!Text.isBlank ·), Text.trim (inside.dropWhile (!Text.isBlank ·)))

/-- A text with its expressions. -/
def readText (cs : List Char) : Noted Template :=
  let (template, faults) := Template.ofText cs
  (template, faults.map .template)

/-- A condition; one that cannot be read never holds. -/
def readCondition (cs : List Char) : Noted Expr :=
  match Expr.parse cs with
  | .ok expr => (expr, [])
  | .error fault => (.bool false, [.badCondition fault])

/-- **A command**, by its first word. -/
def readCommand (number : Nat) (inside : List Char) : Noted Item :=
  let (keyword, rest) := splitKeyword inside
  match String.ofList keyword, rest with
  | "if", rest =>
    let (condition, faults) := readCondition rest
    (.opening condition, faults)
  | "elseif", rest =>
    let (condition, faults) := readCondition rest
    (.branch (some condition), faults)
  | "else", [] => (.branch none, [])
  | "endif", [] => (.closing, [])
  | "set", rest =>
    match Expr.parseAssignment rest with
    | .ok (name, value) => (.plain [.set number name value], [])
    | .error fault => (.plain [], [.badSet (.ofList rest) fault])
  | "stop", [] => (.plain [.stop], [])
  | "jump", [] => (.plain [], [.noJumpTarget])
  | "jump", destination => (.plain [.jump number (.ofList destination)], [])
  | _, _ =>
    let (text, faults) := readText inside
    (.plain [.command number text], faults)

/-! ## Lines of dialogue -/

/-- A line of dialogue with its tags. -/
def readLine (number : Nat) (cs : List Char) : Except TagFault (Noted Statement) := do
  let (base, tags) ← Tags.split cs
  let (text, faults) := readText base
  return (.line number text tags, faults)

/-- The label and the destination between the brackets of a link. -/
def readLink (number : Nat) (inside : List Char) : Noted (List Statement) :=
  let (label, destination) := match Text.cutLast? ['|'] inside with
    | some (label, destination) => (some label, Text.trim destination)
    | none => (none, Text.trim inside)
  if destination = [] then ([], [.noDestination (.ofList inside)])
  else match label with
    | none => ([.link number none (.ofList destination)], [])
    | some label =>
      let (text, faults) := readText (Text.trim label)
      ([.link number (some text) (.ofList destination)], faults)

/-- What a line with links holds: the lines of dialogue before the links, the links, and the text after them. -/
structure Links where
  lines : List Statement := []
  links : List Statement := []
  faults : List BodyFault := []
  rest : List Char := []

/-- The line of dialogue before a link, if there is any text. -/
def readLeading (number : Nat) (cs : List Char) : Except TagFault (Noted (List Statement)) :=
  if cs = [] then .ok ([], [])
  else do
    let (line, faults) ← readLine number cs
    return ([line], faults)

/-- **Reads links from left to right**, as long as they are closed. -/
def readLinks (number : Nat) (cs : List Char) : Except TagFault Links :=
  match _h : Text.cut? ['[', '['] cs with
  | none => .ok { rest := cs }
  | some (before, after) =>
    match _h' : Text.cut? [']', ']'] after with
    | none => .ok { faults := [.unclosedLink], rest := cs }
    | some (inside, rest) => do
      let (lines, faults) ← readLeading number (Text.trim before)
      let (links, linkFaults) := readLink number inside
      let more ← readLinks number rest
      return { more with
        lines := lines ++ more.lines
        links := links ++ more.links
        faults := faults ++ linkFaults ++ more.faults }
termination_by cs.length
decreasing_by
  have h₁ := Text.length_of_cut?_eq_some _h
  have h₂ := Text.length_of_cut?_eq_some _h'
  simp only [List.length_cons, List.length_nil] at *
  omega

/-- A line with links. The links come after all lines of dialogue in it. -/
def readLinkLine (number : Nat) (cs : List Char) : Except TagFault (Noted Item) := do
  let found ← readLinks number cs
  let rest := Text.trim found.rest
  let ignored := if rest = [] ∨ found.links.isEmpty then [] else [.textAfterLink (.ofList rest)]
  return (.plain (found.lines ++ found.links), found.faults ++ ignored)

/-! ## Options -/

/-- The text and the condition of an option without its tags. -/
def splitCondition (cs : List Char) : List Char × Option (List Char) :=
  match Text.cutLast? ['<', '<', 'i', 'f'] cs, Text.dropSuffix? ['>', '>'] cs with
  | some (text, condition), some _ => (Text.trimEnd text, some (Text.trim (condition.take (condition.length - 2))))
  | _, _ => (cs, none)

/-- The header of an option, after its arrow. -/
def readOption (cs : List Char) : Except TagFault (Noted Item) := do
  let (base, tags) ← Tags.split (Text.trim cs)
  let (text, condition) := splitCondition base
  let (condition, conditionFaults) := match condition with
    | none => (none, [])
    | some source =>
      let (condition, faults) := readCondition source
      (some condition, faults)
  let (text, faults) := readText text
  return (.option text condition tags, conditionFaults ++ faults)

/-- **What a line of text is.** -/
def read (number : Nat) (text : List Char) : Except TagFault (Noted Item) :=
  match Text.dropPrefix? ['-', '>'] text with
  | some rest => readOption rest
  | none =>
    match commandInside? text with
    | some inside => .ok (readCommand number inside)
    | none =>
      if (Text.cut? ['[', '['] text).isSome then readLinkLine number text
      else do
        let (line, faults) ← readLine number text
        return (.plain [line], faults)

end Item

/-- **A line of a script**, read on its own. -/
structure BodyLine where
  number : Nat
  indent : Nat
  text : List Char
  item : Item
  faults : List BodyFault
deriving Inhabited

namespace BodyLine

/-- The width of a tab at the start of a line. -/
def tabWidth : Nat := 4

/-- The width of the blanks at the start of a line. -/
def indentOf (cs : List Char) : Nat :=
  (cs.takeWhile Text.isBlank).foldr (fun c width => (if c = '\t' then tabWidth else 1) + width) 0

/-- A line is kept when it is neither blank nor a comment. -/
def isKept (text : List Char) : Bool :=
  text ≠ [] && (Text.dropPrefix? ['/', '/'] text).isNone

/-- **The lines of a script with their numbers, indents and texts**, those of no concern left out. -/
def kept (src : List Char) : List (Nat × Nat × List Char) :=
  ((Text.numberedLines src).map fun (number, line) => (number, indentOf line, Text.trim line)).filter (isKept ·.2.2)

/-- Reads one line. -/
def read (line : Nat × Nat × List Char) : Except TagFault BodyLine := do
  let (number, indent, text) := line
  let (item, faults) ← Item.read number text
  return { number, indent, text, item, faults }

/-- What is to be reported about the line itself. -/
def diagnostics (line : BodyLine) : List Diagnostic :=
  line.faults.map (⟨line.number, ·⟩)

end BodyLine

end Dialogue
