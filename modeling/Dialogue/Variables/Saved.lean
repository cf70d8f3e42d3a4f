import Dialogue.Text.Cut
import Dialogue.Text.Quoted
import Dialogue.Text.Utf8
import Dialogue.Variables.Basic

/-!
# Saved variables

Variables are saved as a table with a row for each, in the order of the names. The key of a row is the kind and the name
with a colon between them, its value is the text of the value; truth values are written in small letters. Loading looks
at the rows one by one and stops at the first that is wrong.

How a table is written and read is left to libraries, and each of their calls can fail: a writer that takes one row
after the other and gives its bytes in the end, and a reader that hands out the rows of a text.

* `load_of_rows_eq_nil`: a text without rows loads as no variables.
-/

namespace Dialogue

/-- **A row of saved variables.** -/
structure SavedRow where
  key : String
  value : String
deriving DecidableEq, Repr

namespace SavedRow

/-- The names of the columns. -/
def columns : List (List Char) := ["key".toList, "value".toList]

/-- The fields of a row, each in its column. -/
def fields (row : SavedRow) : List (List Char) := [row.key.toList, row.value.toList]

end SavedRow

/-- **A library that writes tables**, with what it has written so far in `W`. -/
structure TableWriter (W : Type) where
  /-- Nothing is written yet. -/
  empty : W
  /-- Writes one more row. -/
  serialize : W → SavedRow → Except String W
  /-- The bytes of all that is written. -/
  finish : W → Except String ByteArray

/-- **A library that reads tables**: the rows of a text in their order, or what is wrong with them. -/
structure TableReader where
  rows : String → List (Except String SavedRow)

/-- **What can be wrong when variables are saved or loaded.** -/
inductive SaveFault where
  /-- A row cannot be written or read; the message is that of the library. -/
  | badTable (message : String)
  /-- What is written cannot be had. -/
  | unfinished (message : String)
  /-- What is written is no text. -/
  | badText (fault : Text.Utf8Fault)
  /-- A key without a kind, or without a name after it. -/
  | badKey (key : String)
  | notBool (name value : String)
  | notNumber (name value : String)
  /-- `null` is never stored. -/
  | storedNull (name : String)
deriving DecidableEq, Repr

namespace SaveFault

def message : SaveFault → String
  | .badTable message => "CSV error: " ++ message
  | .unfinished message => "IO error: " ++ message
  | .badText fault => malformed ++ fault.message
  | .badKey key => malformed ++ "bad key " ++ Text.quoted key
  | .notBool name value => malformed ++ name ++ " is not a bool: " ++ Text.quoted value
  | .notNumber name value => malformed ++ name ++ " is not a number: " ++ Text.quoted value
  | .storedNull name => malformed ++ name ++ " cannot be stored as null"
where
  malformed : String := "malformed variable data: "

end SaveFault

namespace Variables

/-! ## Saving -/

/-- The text under which a value is saved. -/
def savedText : Value → String
  | .bool true => "true"
  | .bool false => "false"
  | value => value.text

/-- The row of one variable. -/
def savedRow (entry : String × Value) : SavedRow where
  key := entry.2.kind.name ++ ":" ++ entry.1
  value := savedText entry.2

/-- Writes one more row. -/
def saveRow {W : Type} (writer : TableWriter W) (written : W) (row : SavedRow) : Except SaveFault W :=
  (writer.serialize written row).mapError .badTable

/-- **The saved text of all variables.** -/
def save {W : Type} (vars : Variables) (writer : TableWriter W) : Except SaveFault String := do
  let written ← (vars.toList.map savedRow).foldlM (saveRow writer) writer.empty
  let bytes ← (writer.finish written).mapError .unfinished
  (Text.ofBytes bytes).mapError .badText

/-! ## Loading -/

/-- Reads the saved text of a value of a kind. -/
def loadValue (name : String) (kind : Kind) (value : List Char) : Except SaveFault Value :=
  match kind with
  | .string => .ok (.string (.ofList value))
  | .bool =>
    if value = "true".toList then .ok (.bool true)
    else if value = "false".toList then .ok (.bool false)
    else .error (.notBool name (.ofList value))
  | .number =>
    match Number.parse? value with
    | some x => .ok (.number x)
    | none => .error (.notNumber name (.ofList value))
  | .null => .error (.storedNull name)

/-- Reads the variable of a row. -/
def loadRow (row : SavedRow) : Except SaveFault (String × Value) :=
  match Text.cut? [':'] row.key.toList with
  | some (kind, name) =>
    match Kind.ofName? (.ofList kind), name with
    | some kind, _ :: _ => (loadValue (.ofList name) kind row.value.toList).map (String.ofList name, ·)
    | _, _ => .error (.badKey row.key)
  | none => .error (.badKey row.key)

/-- Reads what a reader has found. -/
def loadFound (found : Except String SavedRow) : Except SaveFault (String × Value) := do
  loadRow (← found.mapError .badTable)

/-- **Reads saved variables.** -/
def load (reader : TableReader) (text : String) : Except SaveFault Variables := do
  let entries ← (reader.rows text).mapM loadFound
  return entries.foldl (fun vars entry => vars.set entry.1 entry.2) ∅

/-- **Takes saved variables into a store**: they are all there is afterwards, and a text at fault changes nothing. -/
def restore (vars : Variables) (reader : TableReader) (text : String) : Except SaveFault Unit × Variables :=
  match load reader text with
  | .ok loaded => (.ok (), loaded)
  | .error fault => (.error fault, vars)

/-! ## Laws -/

theorem load_of_rows_eq_nil {reader : TableReader} {text : String} (h : reader.rows text = []) :
    load reader text = .ok ∅ := by
  rw [load, h]
  rfl

end Variables

end Dialogue
