import Mathlib
import Dialogue.External.Csv

/-!
# Tables as comma-separated values

What the documentation of a library for comma-separated values says, as far as saved variables need it. Of the writer
it tells what each row adds to the text (`TableWriter.Documented`). Of the reader it tells which texts are read as which
rows (`TableReader.Documented`), by a grammar that leaves more open than the writer does (`External.Csv.Spells`): any
field may stand between quotes, a line may end with either character, the last one need not end at all, and empty lines
do not count.

* `External.Csv.spells_flatMap_writeRecord`: what the writer writes is in the grammar. Only a record that is written as
  nothing would be read as an empty line, and `eq_of_spellsRecord_nil` tells which one could be.
* `External.Csv.documented_writer`, `External.Csv.documented_reader`: the library at hand does what its documentation
  says. Its scanner reads a field character by character, and then comes to the comma or the line end behind it as if
  the field had been bare (`scan_spellsField`); from this a spelled record is the next record of the text.
-/

namespace Dialogue

namespace External.Csv

/-! ## The grammar -/

/-- **A field, as it may be spelled**: as it is, or between quotes, with its own quotes doubled. -/
inductive SpellsField : List Char → List Char → Prop where
  | bare {field : List Char} (h : needsQuotes field = false) : SpellsField field field
  | quoted (field : List Char) : SpellsField ('"' :: doubleQuotes field ++ ['"']) field

/-- **A record, as it may be spelled**, with commas between its fields. -/
inductive SpellsRecord : List Char → Record → Prop where
  | single {text field : List Char} (h : SpellsField text field) : SpellsRecord text [field]
  | cons {text field rest : List Char} {record : Record} (h : SpellsField text field)
    (hrest : SpellsRecord rest record) : SpellsRecord (text ++ ',' :: rest) (field :: record)

/-- **A table, as it may be spelled**, line by line. -/
inductive Spells : List Char → List Record → Prop where
  | nil : Spells [] []
  | emptyLine {c : Char} {rest : List Char} {table : List Record} (hc : endsLine c = true) (hrest : Spells rest table) :
    Spells (c :: rest) table
  | line {c : Char} {text rest : List Char} {record : Record} {table : List Record} (h : SpellsRecord text record)
    (hne : text ≠ []) (hc : endsLine c = true) (hrest : Spells rest table) :
    Spells (text ++ c :: rest) (record :: table)
  | lastLine {text : List Char} {record : Record} (h : SpellsRecord text record) (hne : text ≠ []) :
    Spells text [record]

end External.Csv

open External.Csv

/-! ## What the documentation says -/

/-- **The documentation of the writer**, with the text that is written so far as `text`. The first row comes behind the
names of the columns, any other row behind the rows before it; a field stands between quotes only where it has to. No
call fails, since all is written into memory and all rows have as many fields. -/
structure TableWriter.Documented {W : Type} (writer : TableWriter W) (text : W → List Char) : Prop where
  empty : text writer.empty = []
  first : ∀ w row, text w = [] → ∃ w', writer.serialize w row = .ok w' ∧
    text w' = writeRecord SavedRow.columns ++ writeRecord row.fields
  next : ∀ w row, text w ≠ [] → ∃ w', writer.serialize w row = .ok w' ∧ text w' = text w ++ writeRecord row.fields
  finish : ∀ w, writer.finish w = .ok (String.ofList (text w)).toUTF8

/-- **The documentation of the reader.** The first record names the columns, and each record after it is a row. -/
structure TableReader.Documented (reader : TableReader) : Prop where
  rows_of_nil : ∀ text : String, Spells text.toList [] → reader.rows text = []
  rows_of_cons : ∀ (text : String) (rows : List SavedRow),
    Spells text.toList (SavedRow.columns :: rows.map SavedRow.fields) → reader.rows text = rows.map .ok

namespace External.Csv

/-! ## Written tables are in the grammar -/

theorem spellsField_writeField (field : List Char) : SpellsField (writeField field) field := by
  unfold writeField
  split
  · exact .quoted field
  · rename_i hbare
    exact .bare (Bool.not_eq_true _ ▸ hbare)

/-- Fields with commas between them are written as a record may be spelled. -/
theorem spellsRecord_writeFields (field : List Char) (record : Record) :
    SpellsRecord (writeFields (field :: record)) (field :: record) := by
  induction record generalizing field with
  | nil => exact .single (by simpa [writeFields] using spellsField_writeField field)
  | cons next record ih =>
    have hfields : writeFields (field :: next :: record) = writeField field ++ ',' :: writeFields (next :: record) := by
      simp [writeFields]
    rw [hfields]
    exact .cons (spellsField_writeField field) (ih next)

/-- Only a record that has nothing but an empty field is spelled as nothing. -/
theorem eq_of_spellsRecord_nil {record : Record} (h : SpellsRecord [] record) : record = [[]] := by
  generalize htext : [] = text at h
  cases h with
  | single h =>
    cases h with
    | bare =>
      subst htext
      rfl
    | quoted => cases htext
  | cons => simp at htext

/-- A record is written as it may be spelled, with a line end behind it. -/
theorem exists_writeRecord_eq {record : Record} (h : record ≠ []) :
    ∃ text, SpellsRecord text record ∧ text ≠ [] ∧ writeRecord record = text ++ ['\n'] := by
  unfold writeRecord
  split
  · rename_i hempty
    exact ⟨_, hempty ▸ .single (.quoted []), List.cons_ne_nil _ _, rfl⟩
  · rename_i hempty
    obtain ⟨field, record, rfl⟩ := List.exists_cons_of_ne_nil h
    have hfields := spellsRecord_writeFields field record
    exact ⟨_, hfields, fun hnil => hempty (eq_of_spellsRecord_nil (hnil ▸ hfields)), rfl⟩

/-- **A written table is in the grammar.** -/
theorem spells_flatMap_writeRecord : ∀ {table : List Record}, (∀ record ∈ table, record ≠ []) →
    Spells (table.flatMap writeRecord) table
  | [], _ => .nil
  | record :: table, h => by
    obtain ⟨text, hrecord, hne, htext⟩ := exists_writeRecord_eq (h record List.mem_cons_self)
    rw [List.flatMap_cons, htext, List.append_assoc, List.singleton_append]
    exact .line hrecord hne rfl (spells_flatMap_writeRecord fun record hr => h record (List.mem_cons_of_mem _ hr))

/-! ## The scanner reads the grammar -/

theorem foldr_addChar_addField (field : List Char) (records : List Record) :
    field.foldr addChar (addField records) = records.modifyHead (field :: ·) := by
  induction field with
  | nil => rfl
  | cons c field ih =>
    rw [List.foldr_cons, ih]
    cases records <;> simp [addChar]

theorem foldr_addChar_cons (field : List Char) (records : List Record) :
    field.foldr addChar ([[]] :: records) = [field] :: records := by
  induction field with
  | nil => rfl
  | cons c field ih => simp [ih, addChar]

/-- Where no quoted part opens or goes on, the reader stands as in a bare field. -/
theorem scan_eq_scan_bare {place : Place} (hp : place = .field ∨ place = .closing) {text : List Char}
    (h : text.head? ≠ some '"') : scan place text = scan .bare text := by
  cases text with
  | nil => rcases hp with rfl | rfl <;> rfl
  | cons c rest =>
    have hc : c ≠ '"' := fun hc => h (congrArg some hc)
    rcases hp with rfl | rfl <;> simp [scan, hc]

/-- **A spelled field is read up to what stands behind it**, unless that is a quote. -/
theorem scan_spellsField {text field rest : List Char} (h : SpellsField text field) (hrest : rest.head? ≠ some '"') :
    scan .field (text ++ rest) = field.foldr addChar (scan .bare rest) := by
  cases h with
  | bare hbare =>
    rw [← scan_bare_append hbare]
    refine scan_eq_scan_bare (.inl rfl) ?_
    cases text with
    | nil => exact hrest
    | cons c text =>
      rintro ⟨⟩
      simp [needsQuotes] at hbare
  | quoted =>
    have hopen : scan .field ('"' :: doubleQuotes field ++ ['"'] ++ rest) =
        scan .quoted (doubleQuotes field ++ '"' :: rest) := by
      simp [scan, endsLine]
    have hclose : scan .quoted ('"' :: rest) = scan .closing rest := by
      simp [scan]
    rw [hopen, scan_quoted_doubleQuotes, hclose, scan_eq_scan_bare (.inr rfl) hrest]

/-- **A spelled record is read up to where its line ends.** -/
theorem scan_field_spellsRecord {text rest : List Char} {record : Record} {table : List Record}
    (h : SpellsRecord text record) (hrest : rest.head? ≠ some '"') (hend : scan .bare rest = [[]] :: table) :
    scan .field (text ++ rest) = record :: table := by
  induction h with
  | single h => rw [scan_spellsField h hrest, hend, foldr_addChar_cons]
  | @cons text field next record h _ ih =>
    have hcomma : scan .bare (',' :: (next ++ rest)) = addField (scan .field (next ++ rest)) := by
      simp [scan, endsLine]
    rw [List.append_assoc, List.cons_append, scan_spellsField h (by simp), hcomma, ih, foldr_addChar_addField,
      List.modifyHead_cons]

/-- The first character of a spelled field is no line end. -/
theorem endsLine_of_spellsField {c : Char} {text field : List Char} (h : SpellsField (c :: text) field) :
    endsLine c = false := by
  cases h with
  | bare h =>
    simp [needsQuotes] at h
    simp [endsLine, h]
  | quoted => rfl

/-- Nor is the first character of a spelled record. -/
theorem endsLine_of_spellsRecord {c : Char} {text : List Char} {record : Record} (h : SpellsRecord (c :: text) record) :
    endsLine c = false := by
  generalize htext : c :: text = line at h
  cases h with
  | single h =>
    subst htext
    exact endsLine_of_spellsField h
  | @cons first field next record h =>
    cases first with
    | nil =>
      cases htext
      rfl
    | cons d first =>
      cases htext
      exact endsLine_of_spellsField h

theorem scan_record_spellsRecord {text rest : List Char} {record : Record} {table : List Record}
    (h : SpellsRecord text record) (hne : text ≠ []) (hrest : rest.head? ≠ some '"')
    (hend : scan .bare rest = [[]] :: table) : scan .record (text ++ rest) = record :: table := by
  obtain ⟨c, text, rfl⟩ := List.exists_cons_of_ne_nil hne
  rw [← scan_field_spellsRecord h hrest hend]
  simp [scan, endsLine_of_spellsRecord h]

/-- **The scanner reads every spelled table.** -/
theorem scan_of_spells {text : List Char} {table : List Record} (h : Spells text table) :
    scan .record text = table := by
  induction h with
  | nil => rfl
  | emptyLine hc _ ih => simpa [scan, hc] using ih
  | line h hne hc _ ih =>
    refine scan_record_spellsRecord h hne ?_ ?_
    · rintro ⟨⟩
      cases hc
    · simp [scan, hc, ih]
  | @lastLine text record h hne =>
    have hlast : scan .record (text ++ []) = [record] := scan_record_spellsRecord h hne (by simp) rfl
    rwa [List.append_nil] at hlast

/-! ## The library does what its documentation says -/

/-- No byte order mark stands before an empty table, or before one that begins with the names of the columns. -/
theorem head?_ne_mark {text : List Char} {table : List Record} (h : Spells text table)
    (hcolumns : ∀ record ∈ table.head?, record = SavedRow.columns) : text.head? ≠ some '\ufeff' := by
  intro hmark
  obtain ⟨rest, rfl⟩ := List.head?_eq_some_iff.1 hmark
  have hscan : addChar '\ufeff' (scan .bare rest) = table := by
    rw [← scan_of_spells h]
    simp [scan, endsLine]
  cases table with
  | nil =>
    generalize htext : '\ufeff' :: rest = text at h
    cases h with
    | nil => cases htext
    | emptyLine hc =>
      cases htext
      cases hc
  | cons record table =>
    cases hcolumns record rfl
    rcases hfound : scan .bare rest with _ | ⟨_ | ⟨field, fields⟩, table⟩
    all_goals
      rw [hfound] at hscan
      simp [addChar, SavedRow.columns] at hscan

theorem read_of_spells {text : List Char} {table : List Record} (h : Spells text table)
    (hcolumns : ∀ record ∈ table.head?, record = SavedRow.columns) : read text = table := by
  have hmark := head?_ne_mark h hcolumns
  unfold read
  split
  · exact absurd rfl hmark
  · exact scan_of_spells h

theorem rowOf_fields (row : SavedRow) : rowOf SavedRow.columns row.fields = .ok row := by
  have hrow : rowOf SavedRow.columns row.fields = .ok ⟨.ofList row.key.toList, .ofList row.value.toList⟩ := rfl
  rw [hrow, String.ofList_toList, String.ofList_toList]

theorem documented_writer : writer.Documented id where
  empty := rfl
  first
    | [], _, _ => ⟨_, rfl, rfl⟩
  next
    | _ :: _, _, _ => ⟨_, rfl, rfl⟩
  finish _ := rfl

theorem documented_reader : reader.Documented where
  rows_of_nil _ h := congrArg rowsOf (read_of_spells h nofun)
  rows_of_cons text rows h := by
    have hread : reader.rows text = (rows.map SavedRow.fields).map (rowOf SavedRow.columns) :=
      congrArg rowsOf (read_of_spells h (by simp))
    simp [hread, rowOf_fields]

end External.Csv

end Dialogue
