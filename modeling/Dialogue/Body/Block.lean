import Dialogue.Body.Line

/-!
# Blocks

How the lines of a script nest. A conditional reaches from its first line to the line that closes it, whatever their
indents. An option's body is the run of lines after it that are indented deeper than it; options of one indent with
nothing but their bodies between them form a group. What opens inside an option's body has to close there.

The extent of a conditional or a group is found first; then each of its parts is a block of its own.

* `length_extent`, `length_group`, `length_deeper`: extents split a block and lose no line.
-/

namespace Dialogue

namespace BodyLine

/-- A line that goes on with or ends a conditional. -/
def continues : Item → Bool
  | .branch _ | .closing => true
  | _ => false

/-- A line that ends a conditional. -/
def closes : Item → Bool
  | .closing => true
  | _ => false

/-- **The lines up to the first one that meets `stop` outside of inner conditionals and options**, and the lines from
it on. `depth` conditionals are open, and lines deeper than the indent `shield` belong to an option. -/
def extent (stop : Item → Bool) (depth : Nat) (shield : Option Nat) : List BodyLine → List BodyLine × List BodyLine
  | [] => ([], [])
  | line :: rest =>
    let take (depth : Nat) (shield : Option Nat) :=
      let (inside, outside) := extent stop depth shield rest
      (line :: inside, outside)
    if shield.any (· < line.indent) then take depth shield
    else if depth = 0 ∧ stop line.item then ([], line :: rest)
    else match line.item with
      | .opening _ => take (depth + 1) none
      | .closing => take (depth - 1) none
      | .option .. => take depth (some line.indent)
      | .branch _ | .plain _ => take depth none

/-- The lines indented deeper than an option, and the lines after them. -/
def deeper (indent : Nat) (lines : List BodyLine) : List BodyLine × List BodyLine :=
  (lines.takeWhile (indent < ·.indent), lines.dropWhile (indent < ·.indent))

/-- The line is an option of the given indent. -/
def isOptionAt (indent : Nat) (line : BodyLine) : Bool :=
  match line.item with
  | .option .. => line.indent = indent
  | _ => false

/-- The line belongs to a group of options of the given indent. -/
def inGroup (indent : Nat) (line : BodyLine) : Bool :=
  indent < line.indent || line.isOptionAt indent

/-- The lines after an option that belong to its group, and the lines after the group. -/
def group (indent : Nat) (lines : List BodyLine) : List BodyLine × List BodyLine :=
  (lines.takeWhile (inGroup indent), lines.dropWhile (inGroup indent))

theorem length_extent (stop : Item → Bool) (depth : Nat) (shield : Option Nat) (lines : List BodyLine) :
    (extent stop depth shield lines).1.length + (extent stop depth shield lines).2.length = lines.length := by
  induction lines generalizing depth shield with
  | nil => rfl
  | cons line rest ih =>
    have step (d : Nat) (s : Option Nat) :
        (line :: (extent stop d s rest).1).length + (extent stop d s rest).2.length = (line :: rest).length := by
      have := ih d s
      simp only [List.length_cons]
      omega
    unfold extent
    dsimp only
    split
    · exact step ..
    · split
      · simp
      · split <;> exact step ..

theorem length_deeper (indent : Nat) (lines : List BodyLine) :
    (deeper indent lines).1.length + (deeper indent lines).2.length = lines.length := by
  rw [deeper, ← List.length_append, List.takeWhile_append_dropWhile]

theorem length_group (indent : Nat) (lines : List BodyLine) :
    (group indent lines).1.length + (group indent lines).2.length = lines.length := by
  rw [group, ← List.length_append, List.takeWhile_append_dropWhile]

end BodyLine

/-! ## Building the tree -/

/-- Parts of a script and what is reported about them. -/
structure Parsed (α : Type) where
  items : List α
  diagnostics : List Diagnostic

namespace Parsed

variable {α : Type}

/-- One part after the other. -/
def append (a b : Parsed α) : Parsed α :=
  ⟨a.items ++ b.items, a.diagnostics ++ b.diagnostics⟩

instance : Append (Parsed α) := ⟨append⟩

end Parsed

/-- The condition of a branch, by its first line. -/
def Item.condition? : Item → Option Expr
  | .opening condition => some condition
  | .branch condition => condition
  | _ => none

namespace Body

open BodyLine

mutual

/-- **The statements of a block.** -/
def block (lines : List BodyLine) : Parsed Statement :=
  match lines with
  | [] => ⟨[], []⟩
  | line :: rest =>
    match line.item with
    | .plain statements => ⟨statements, line.diagnostics⟩ ++ block rest
    | .branch _ | .closing => ⟨[], [⟨line.number, .stray (.ofList line.text)⟩]⟩ ++ block rest
    | .opening _ =>
      let clauses := clauses (line :: (extent closes 0 none rest).1)
      let outside := (extent closes 0 none rest).2
      let missing := if outside.isEmpty then [⟨line.number, .missingEnd⟩] else []
      ⟨[.conditional clauses.items], clauses.diagnostics ++ missing⟩ ++ block (outside.drop 1)
    | .option .. =>
      let choices := choices (line :: (group line.indent rest).1)
      ⟨[.options choices.items], choices.diagnostics⟩ ++ block (group line.indent rest).2
termination_by 3 * lines.length + 2
decreasing_by
  · simp only [List.length_cons]
    omega
  · simp only [List.length_cons]
    omega
  · have := length_extent closes 0 none rest
    simp only [List.length_cons]
    omega
  · have := length_extent closes 0 none rest
    simp only [List.length_cons, List.length_drop]
    omega
  · have := length_group line.indent rest
    simp only [List.length_cons]
    omega
  · have := length_group line.indent rest
    simp only [List.length_cons]
    omega

/-- **The branches of a conditional**, from its first line up to the one that closes it. -/
def clauses (lines : List BodyLine) : Parsed Clause :=
  match lines with
  | [] => ⟨[], []⟩
  | line :: rest =>
    let body := block (extent continues 0 none rest).1
    ⟨[.mk line.number line.item.condition? body.items], line.diagnostics ++ body.diagnostics⟩ ++
      clauses (extent continues 0 none rest).2
termination_by 3 * lines.length + 1
decreasing_by
  · have := length_extent continues 0 none rest
    simp only [List.length_cons]
    omega
  · have := length_extent continues 0 none rest
    simp only [List.length_cons]
    omega

/-- **The options of a group** with their bodies. -/
def choices (lines : List BodyLine) : Parsed Choice :=
  match lines with
  | [] => ⟨[], []⟩
  | line :: rest =>
    match line.item with
    | .option text condition tags =>
      let body := block (deeper line.indent rest).1
      ⟨[.mk line.number text condition tags body.items], line.diagnostics ++ body.diagnostics⟩ ++
        choices (deeper line.indent rest).2
    | _ => ⟨[], []⟩
termination_by 3 * lines.length + 1
decreasing_by
  · have := length_deeper line.indent rest
    simp only [List.length_cons]
    omega
  · have := length_deeper line.indent rest
    simp only [List.length_cons]
    omega

end

/-- **Reads the body of a node.** -/
def parse (src : String) : Except TagFault (Parsed Statement) := do
  let lines ← (kept src.toList).mapM read
  return block lines

end Body

end Dialogue
