import Dialogue.Variables.Saved

/-!
# A library for comma-separated values

A writer and a reader of tables, for a host to save its variables with. Nothing else in the program knows them.

A record is a list of fields, separated by commas and ended by a line end. A field that holds a comma, a quote or a line
end is written between quotes, with its own quotes doubled, and so is an empty field that is all there is, since its
line would be empty. Before the first row the names of the columns are written.

Reading takes `\n`, `\r` or both as a line end and skips empty lines. Only a quote at the start of a field opens a
quoted part; text after the closing quote belongs to the field as it stands, and the end of the input closes everything.
The first record names the columns, which may come in any order.

* `scan_quoted_doubleQuotes`, `scan_bare_append`: a field is read back in either written form, whatever follows it.
-/

namespace Dialogue.External.Csv

abbrev Record := List (List Char)

/-! ## Writing -/

/-- The field has to stand between quotes. -/
def needsQuotes (field : List Char) : Bool :=
  field.any fun c => c = ',' || c = '"' || c = '\r' || c = '\n'

/-- The text with every quote doubled. -/
def doubleQuotes (field : List Char) : List Char :=
  field.flatMap fun c => if c = '"' then ['"', '"'] else [c]

/-- The written form of a field. -/
def writeField (field : List Char) : List Char :=
  if needsQuotes field then '"' :: doubleQuotes field ++ ['"'] else field

/-- The written forms of fields, with commas between them. -/
def writeFields (record : Record) : List Char :=
  [','].intercalate (record.map writeField)

/-- **The written form of a record.** -/
def writeRecord (record : Record) : List Char :=
  (if record = [[]] then ['"', '"'] else writeFields record) ++ ['\n']

/-- **The writer.** What is written is kept as it is, and no call fails. -/
def writer : TableWriter (List Char) where
  empty := []
  serialize
    | [], row => .ok (writeRecord SavedRow.columns ++ writeRecord row.fields)
    | written, row => .ok (written ++ writeRecord row.fields)
  finish written := .ok (String.ofList written).toUTF8

/-! ## Reading -/

/-- Where a reader stands. -/
inductive Place where
  /-- before a record -/
  | record
  /-- before a field -/
  | field
  /-- in a field, outside quotes -/
  | bare
  /-- between quotes -/
  | quoted
  /-- after a quote that may close the quoted part or be the first of two -/
  | closing
deriving DecidableEq, Repr

/-- One more character at the start of the first field. -/
def addChar (c : Char) (records : List Record) : List Record :=
  records.modifyHead fun record => record.modifyHead (c :: ·)

/-- One more empty field at the start of the first record. -/
def addField (records : List Record) : List Record :=
  records.modifyHead ([] :: ·)

/-- A character that ends a line. -/
def endsLine (c : Char) : Bool := c = '\n' || c = '\r'

/-- **Reads the rest of a text**: what is left of the record in which the reader stands, then the records after it. -/
def scan : Place → List Char → List Record
  | .record, [] => []
  | _, [] => [[[]]]
  | .quoted, c :: rest => if c = '"' then scan .closing rest else addChar c (scan .quoted rest)
  | place, c :: rest =>
    if place = .closing ∧ c = '"' then addChar c (scan .quoted rest)
    else if endsLine c then
      if place = .record then scan .record rest else [[]] :: scan .record rest
    else if c = ',' then addField (scan .field rest)
    else if c = '"' ∧ (place = .record ∨ place = .field) then scan .quoted rest
    else addChar c (scan .bare rest)

/-- **The records of a text.** A byte order mark before them is no part of the first one. -/
def read : List Char → List Record
  | '\ufeff' :: rest => scan .record rest
  | cs => scan .record cs

/-- The only field of a record in a column of the given name. -/
def column? (header record : Record) (name : String) : Option (List Char) :=
  match (header.zip record).filter (·.1 = name.toList) with
  | [(_, field)] => some field
  | _ => none

/-- The row of a record under the header. -/
def rowOf (header record : Record) : Except String SavedRow :=
  if record.length = header.length then
    match column? header record "key", column? header record "value" with
    | some key, some value => .ok ⟨.ofList key, .ofList value⟩
    | _, _ => .error "a column is missing or there twice"
  else .error "there are more or fewer fields than columns"

/-- The rows of a table. -/
def rowsOf : List Record → List (Except String SavedRow)
  | [] => []
  | header :: records => records.map (rowOf header)

/-- **The reader.** -/
def reader : TableReader where
  rows text := rowsOf (read text.toList)

/-! ## Laws -/

/-- A quoted part is read up to its closing quote. -/
theorem scan_quoted_doubleQuotes (field rest : List Char) :
    scan .quoted (doubleQuotes field ++ rest) = field.foldr addChar (scan .quoted rest) := by
  induction field with
  | nil => rfl
  | cons c field ih =>
    by_cases hc : c = '"'
    · subst hc
      simpa [doubleQuotes, scan] using congrArg (addChar '"') ih
    · simpa [doubleQuotes, scan, hc] using congrArg (addChar c) ih

/-- A field without special characters is read as it is. -/
theorem scan_bare_append {field : List Char} (h : needsQuotes field = false) (rest : List Char) :
    scan .bare (field ++ rest) = field.foldr addChar (scan .bare rest) := by
  induction field with
  | nil => rfl
  | cons c field ih =>
    simp only [needsQuotes, List.any_cons, Bool.or_eq_false_iff, decide_eq_false_iff_not] at h
    obtain ⟨⟨⟨⟨h1, h2⟩, h3⟩, h4⟩, hr⟩ := h
    simp [scan, endsLine, h1, h2, h3, h4, ih hr]

end Dialogue.External.Csv
