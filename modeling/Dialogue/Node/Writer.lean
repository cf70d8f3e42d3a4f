import Dialogue.Node.Reader

/-!
# Writing nodes

The canonical form of a node: its fields in a given order, its other headers, and its body between `---` and `===`. A
parent that is not there is not written.

* `mem_writeOrder`: whatever order is asked for, every field has its place in it.
-/

namespace Dialogue

/-- The characters at the end of a line. -/
inductive LineEnding where
  | unix
  | windows
deriving DecidableEq, Repr

namespace LineEnding

def toList : LineEnding → List Char
  | .unix => ['\n']
  | .windows => ['\r', '\n']

/-- The line ending of the system. -/
def native : LineEnding := .unix

/-- The line ending of a given name. -/
def ofName? : String → Option LineEnding
  | "unix" => some .unix
  | "windows" => some .windows
  | "native" => some native
  | _ => none

end LineEnding

/-- **How nodes are written.** Fields that `order` leaves out follow those it names. -/
structure WriteStyle where
  lineEnding : LineEnding := .unix
  order : List Field := Field.all
deriving DecidableEq, Repr

namespace WriteStyle

/-- All fields, each once: first the ones asked for. -/
def writeOrder (style : WriteStyle) : List Field :=
  (style.order ++ Field.all).foldl (fun order field => if field ∈ order then order else order ++ [field]) []

end WriteStyle

namespace Node

/-- The text of a position. -/
def positionText (position : Position) : List Char :=
  Text.intText position.x.toInt ++ ',' :: Text.intText position.y.toInt

/-- The value of a field, where the node has one. -/
def fieldValue? (node : Node) : Field → Option (List Char)
  | .title => some node.title.toList
  | .tags => some node.tags.toList
  | .position => some (positionText node.position)
  | .parent => node.parent.map String.toList

/-- A header line, without its end. -/
def headerLine (key value : List Char) : List Char :=
  key ++ ':' :: ' ' :: value

/-- The header lines of a node, the fields in the given order. -/
def headerLines (node : Node) (order : List Field) : List (List Char) :=
  order.filterMap (fun field => (node.fieldValue? field).map (headerLine field.name.toList)) ++
    node.extra.map fun header => headerLine header.key.toList header.value.toList

/-- The lines of a body; a line end is never part of a line. -/
def bodyLines (body : String) : List (List Char) :=
  if body.isEmpty then []
  else (body.toList.splitOn '\n').map fun line => (line.reverse.dropWhile (· = '\r')).reverse

/-- All lines of a node. -/
def allLines (node : Node) (order : List Field) : List (List Char) :=
  node.headerLines order ++ bodyStart :: bodyLines node.body ++ [bodyEnd]

/-- **The canonical text of nodes.** -/
def render (nodes : List Node) (style : WriteStyle) : String :=
  .ofList (nodes.flatMap fun node => (node.allLines style.writeOrder).flatMap (· ++ style.lineEnding.toList))

/-! ## Laws -/

theorem mem_foldl_append_new {α : Type} [DecidableEq α] (x : α) : ∀ (fields order : List α),
    x ∈ fields.foldl (fun order field => if field ∈ order then order else order ++ [field]) order ↔
      x ∈ order ∨ x ∈ fields
  | [], order => by simp
  | field :: fields, order => by
    rw [List.foldl_cons, mem_foldl_append_new x fields]
    split
    · rename_i h
      constructor
      · rintro (hx | hx)
        · exact .inl hx
        · exact .inr (List.mem_cons_of_mem _ hx)
      · rintro (hx | hx)
        · exact .inl hx
        · rcases List.mem_cons.1 hx with rfl | hx
          · exact .inl h
          · exact .inr hx
    · simp [or_assoc]

theorem mem_writeOrder (style : WriteStyle) (field : Field) : field ∈ style.writeOrder := by
  simp [WriteStyle.writeOrder, mem_foldl_append_new, Field.mem_all]

end Node

end Dialogue
