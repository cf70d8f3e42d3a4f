import Dialogue.Node.Basic
import Dialogue.Text.Cut
import Dialogue.Text.Integer
import Dialogue.Text.Line
import Dialogue.Text.Quoted

/-!
# Reading nodes

A text holds blocks: header lines `key: value`, a line `---`, the lines of the body, and a line `===`. The last block may
lack its `===`. Blank header lines are skipped; a header that cannot be read, is repeated or belongs to no block is
passed over with a warning. Only a text without any `---` holds no node at all.

* `parse_eq_error_iff`: reading fails exactly when no line is `---`.
-/

namespace Dialogue

/-- The line that starts a body. -/
def bodyStart : List Char := ['-', '-', '-']

/-- The line that ends a body. -/
def bodyEnd : List Char := ['=', '=', '=']

/-- **A text without a body.** -/
inductive NodeFault where
  | noBody
deriving DecidableEq, Repr

namespace NodeFault

/-- What is wrong with the text. -/
def detail : NodeFault → String
  | .noBody => "no '---' line found"

def message (fault : NodeFault) : String :=
  "malformed input: " ++ fault.detail

end NodeFault

/-- **What a reader passes over.** Lines are counted from 1, nodes from 0. -/
inductive Warning where
  | badHeader (line : Nat) (text : String)
  | repeatedHeader (line : Nat) (field : Field)
  | badPosition (line : Nat) (value : String)
  | noTitle (index : Nat)
  | droppedHeaders (title : String)
deriving DecidableEq, Repr

namespace Warning

def message : Warning → String
  | .badHeader line text => "Line " ++ Text.showNat line ++ ": skipping malformed header " ++ Text.quoted text
  | .repeatedHeader line field =>
    "Line " ++ Text.showNat line ++ ": repeated '" ++ field.name ++ "' header, keeping the last one"
  | .badPosition line value => "Line " ++ Text.showNat line ++ ": invalid position " ++ Text.quoted value ++ ", using 0,0"
  | .noTitle index => "Node " ++ Text.showNat index ++ " has no title"
  | .droppedHeaders title => "Dropping headers for " ++ Text.quoted title ++ ": input ended before '---'"

end Warning

namespace Node

abbrev NumberedLine := Nat × List Char

/-! ## Headers -/

/-- Reads a coordinate, blanks around it apart. -/
def readCoordinate? (cs : List Char) : Option Int32 :=
  ((Text.readInt? (Text.trim cs)).filter fun i =>
    Int32.minValue.toInt ≤ i ∧ i ≤ Int32.maxValue.toInt).map .ofInt

/-- Reads two coordinates with a comma between them. -/
def readPosition? (cs : List Char) : Option Position := do
  let (x, y) ← Text.cut? [','] cs
  return ⟨← readCoordinate? x, ← readCoordinate? y⟩

/-- **The key and the value of a header line.** The key is a single word; of the value, one leading space is left
out. -/
def splitHeader? (line : List Char) : Option (List Char × List Char) :=
  match Text.cut? [':'] line with
  | none => none
  | some (before, after) =>
    let key := Text.trim before
    if key = [] ∨ key.any Text.isBlank then none
    else some (key, match after with
      | ' ' :: value => value
      | value => value)

/-- A node whose headers are being read. -/
structure Draft where
  node : Node := {}
  /-- The fields that were given so far. -/
  given : List Field := []
  /-- Some header could be read. -/
  started : Bool := false
  warnings : List Warning := []
deriving Repr

namespace Draft

/-- Takes the value of a field. -/
def setField (draft : Draft) (line : Nat) (field : Field) (value : List Char) : Draft :=
  let again := if field ∈ draft.given then [Warning.repeatedHeader line field] else []
  let draft := { draft with
    given := if field ∈ draft.given then draft.given else draft.given ++ [field]
    warnings := draft.warnings ++ again }
  match field with
  | .title => { draft with node.title := .ofList value }
  | .tags => { draft with node.tags := .ofList value }
  | .parent => { draft with node.parent := some (.ofList value) }
  | .position =>
    match readPosition? value with
    | some position => { draft with node.position := position }
    | none => { draft with
        node.position := {}
        warnings := draft.warnings ++ [.badPosition line (.ofList value)] }

/-- **Takes one header line.** -/
def addLine (draft : Draft) (line : NumberedLine) : Draft :=
  if Text.allBlank line.2 then draft else
    match splitHeader? line.2 with
    | none => { draft with warnings := draft.warnings ++ [.badHeader line.1 (.ofList line.2)] }
    | some (key, value) =>
      let draft := { draft with started := true }
      match Field.ofName? (.ofList key) with
      | some field => draft.setField line.1 field value
      | none => { draft with node.extra := draft.node.extra ++ [⟨.ofList key, .ofList value⟩] }

/-- The draft that the header lines of one block give. -/
def ofLines (lines : List NumberedLine) : Draft :=
  lines.foldl addLine {}

end Draft

/-! ## Blocks -/

/-- The node with its body, and what is to be said about it. -/
def finish (draft : Draft) (index : Nat) (body : List NumberedLine) : Node × List Warning :=
  ({ draft.node with body := .ofList (['\n'].intercalate (body.map Prod.snd)) },
    draft.warnings ++ if draft.node.title.isEmpty then [.noTitle index] else [])

/-- The lines up to one that equals `mark`, and the lines from it on. -/
def untilLine (mark : List Char) (lines : List NumberedLine) : List NumberedLine × List NumberedLine :=
  (lines.takeWhile (·.2 ≠ mark), lines.dropWhile (·.2 ≠ mark))

theorem length_untilLine (mark : List Char) (lines : List NumberedLine) :
    (untilLine mark lines).1.length + (untilLine mark lines).2.length = lines.length := by
  simp only [untilLine]
  rw [← List.length_append, List.takeWhile_append_dropWhile]

/-- **Reads block after block.** `index` is the number of nodes before them. -/
def readBlocks (index : Nat) (lines : List NumberedLine) : List Node × List Warning :=
  let draft := Draft.ofLines (untilLine bodyStart lines).1
  match _h : (untilLine bodyStart lines).2 with
  | [] => ([], draft.warnings ++ if draft.started then [.droppedHeaders draft.node.title] else [])
  | _ :: rest =>
    let (node, warnings) := finish draft index (untilLine bodyEnd rest).1
    let (nodes, later) := readBlocks (index + 1) ((untilLine bodyEnd rest).2.drop 1)
    (node :: nodes, warnings ++ later)
termination_by lines.length
decreasing_by
  have h₁ := length_untilLine bodyStart lines
  have h₂ := length_untilLine bodyEnd rest
  rw [_h] at h₁
  simp only [List.length_cons, List.length_drop] at *
  omega

/-- **Reads the nodes of a text**, with what was passed over. -/
def parse (text : String) : Except NodeFault (List Node × List Warning) :=
  let lines := Text.numberedLines text.toList
  if lines.any (·.2 = bodyStart) then .ok (readBlocks 0 lines) else .error .noBody

/-! ## Laws -/

theorem parse_eq_error_iff {text : String} {fault : NodeFault} :
    parse text = .error fault ↔ ∀ line ∈ Text.numberedLines text.toList, line.2 ≠ bodyStart := by
  cases fault
  simp only [parse]
  split <;> rename_i h
  · simpa using h
  · simpa using fun n line hl he => h (List.any_eq_true.2 ⟨(n, line), hl, by simpa using he⟩)

end Node

end Dialogue
