import Dialogue.Text.Blank

/-!
# Nodes

A node is one scene of a dialogue: a title, a body with the script, and headers about them. Four headers have a meaning
of their own, the others are kept as they are.

* `Field.ofName?_name`: a field is known by its name.
-/

namespace Dialogue

/-- A place on the writer's canvas. -/
structure Position where
  x : Int32 := 0
  y : Int32 := 0
deriving DecidableEq, Repr, Inhabited

/-- A header without a meaning of its own. -/
structure Header where
  key : String
  value : String
deriving DecidableEq, Repr

/-- **A node** as its author wrote it. -/
structure Node where
  title : String := ""
  body : String := ""
  tags : String := ""
  position : Position := {}
  parent : Option String := none
  extra : List Header := []
deriving DecidableEq, Repr, Inhabited

/-- The headers with a meaning of their own. -/
inductive Field where
  | title
  | tags
  | position
  | parent
deriving DecidableEq, Repr

namespace Field

/-- The order in which fields are written when nothing else is said. -/
def all : List Field := [.title, .tags, .position, .parent]

/-- The key of a field's header. -/
def name : Field → String
  | .title => "title"
  | .tags => "tags"
  | .position => "position"
  | .parent => "parent"

/-- The field with a given key. -/
def ofName? : String → Option Field
  | "title" => some .title
  | "tags" => some .tags
  | "position" => some .position
  | "parent" => some .parent
  | _ => none

@[simp] theorem ofName?_name (field : Field) : ofName? field.name = some field := by
  cases field <;> rfl

theorem mem_all (field : Field) : field ∈ all := by
  cases field <;> decide

end Field

namespace Node

/-- The tags of a node, one by one. -/
def tagList (node : Node) : List String :=
  (Text.words node.tags.toList).map .ofList

/-- The value of the first header with a given key, the four fields apart. -/
def extra? (node : Node) (key : String) : Option String :=
  (node.extra.find? (·.key = key)).map Header.value

end Node

end Dialogue
