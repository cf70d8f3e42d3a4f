import Dialogue.Proofs.Number.ReadBack
import Dialogue.Proofs.Text.Line
import Dialogue.Proofs.Variables.Csv
import Dialogue.Variables.Saved

/-!
# Saved variables load back

No store that edits lead to holds a `null` (`nullFree_after`): each edit keeps that, reading saved variables included,
since what is read is set one by one. So every variable is saved under a text that is read back as its value
(`loadValue_savedText`), and every row is read back as its variable, unless the name is empty and with it the rest of
the key (`loadRow_savedRow`). Rows are read as their entries up to the first without a name (`mapM_loadRow_savedRow`,
`exists_mapM_loadRow_savedRow_eq_error`); the entries of a store have different names, so setting them one by one makes
the same store (`get?_setAll_toList`).

Writing and reading are left to libraries of which nothing is known but their documentation. One row after the other, a
documented writer comes to the text of the whole table (`exists_foldlM_saveRow`), so saving succeeds (`save_eq`), and a
documented reader finds the rows in that text (`rows_of_tableText`). `restore_save_after` puts all of this together.
-/

namespace Dialogue.Variables

open External.Csv

/-! ## Stores under edits -/

/-- **What a host does to a store.** -/
inductive Edit where
  | set (name : String) (value : Value)
  | remove (name : String)
  | clear
  /-- takes saved variables, or text that is none -/
  | restore (text : String)

/-- The store after an edit. -/
def Edit.apply (reader : TableReader) (vars : Variables) : Edit → Variables
  | .set name value => vars.set name value
  | .remove name => vars.remove name
  | .clear => ∅
  | .restore text => (vars.restore reader text).2

/-- The store after edits, from an empty one. -/
def after (reader : TableReader) (edits : List Edit) : Variables :=
  edits.foldl (Edit.apply reader) ∅

/-- The store with entries set one after the other, as they are when a save is read. -/
def setAll (vars : Variables) (entries : List (String × Value)) : Variables :=
  entries.foldl (fun vars entry => vars.set entry.1 entry.2) vars

/-- **No variable is `null`.** -/
def NullFree (vars : Variables) : Prop :=
  ∀ name, vars.get? name ≠ some .null

theorem nullFree_empty : NullFree ∅ := by
  simp [NullFree]

theorem NullFree.remove {vars : Variables} (h : vars.NullFree) (name : String) : (vars.remove name).NullFree := by
  intro other
  rw [get?_remove]
  split
  · simp
  · exact h other

theorem NullFree.set {vars : Variables} (h : vars.NullFree) (name : String) (value : Value) :
    (vars.set name value).NullFree := by
  by_cases hv : value = .null
  · subst hv
    exact h.remove name
  · intro other
    rw [get?_set vars name other hv]
    split
    · exact fun he => hv (Option.some.inj he)
    · exact h other

theorem NullFree.setAll {vars : Variables} (h : vars.NullFree) (entries : List (String × Value)) :
    (vars.setAll entries).NullFree := by
  induction entries generalizing vars with
  | nil => exact h
  | cons entry entries ih => exact ih (h.set entry.1 entry.2)

theorem nullFree_of_load {reader : TableReader} {text : String} {vars : Variables} (h : load reader text = .ok vars) :
    vars.NullFree := by
  unfold load at h
  cases hentries : (reader.rows text).mapM loadFound with
  | error fault =>
    rw [hentries] at h
    cases h
  | ok entries =>
    rw [hentries] at h
    cases h
    exact nullFree_empty.setAll entries

theorem NullFree.restore {vars : Variables} (h : vars.NullFree) (reader : TableReader) (text : String) :
    (vars.restore reader text).2.NullFree := by
  unfold Variables.restore
  split
  · rename_i hload
    exact nullFree_of_load hload
  · exact h

/-- An edit stores no `null`. -/
theorem NullFree.apply {vars : Variables} (h : vars.NullFree) (reader : TableReader) (edit : Edit) :
    (edit.apply reader vars).NullFree := by
  cases edit with
  | set name value => exact h.set name value
  | remove name => exact h.remove name
  | clear => exact nullFree_empty
  | restore text => exact h.restore reader text

/-- **No edits ever store a `null`.** -/
theorem nullFree_after (reader : TableReader) (edits : List Edit) : (after reader edits).NullFree :=
  List.foldlRecOn edits (Edit.apply reader) nullFree_empty fun _ h edit _ => h.apply reader edit

/-! ## One row -/

/-- **The saved text of a value is read back as the value.** -/
theorem loadValue_savedText (name : String) {value : Value} (h : value ≠ .null) :
    loadValue name value.kind (savedText value).toList = .ok value := by
  cases value with
  | string s => simp [Value.kind, loadValue, savedText, Value.text]
  | bool b => cases b <;> rfl
  | number x => simp [Value.kind, loadValue, savedText, Value.text, Number.parse?_text]
  | null => exact absurd rfl h

theorem colon_notMem_name (kind : Kind) : ':' ∉ kind.name.toList := by
  cases kind <;> decide

/-- **A saved row is read back as its variable**, when the variable has a name. -/
theorem loadRow_savedRow {entry : String × Value} (h : entry.2 ≠ .null) :
    loadRow (savedRow entry) =
      if entry.1 = "" then .error (.badKey (entry.2.kind.name ++ ":")) else .ok entry := by
  obtain ⟨name, value⟩ := entry
  have hcut : Text.cut? [':'] (value.kind.name ++ ":" ++ name).toList = some (value.kind.name.toList, name.toList) := by
    have hkey : (value.kind.name ++ ":" ++ name).toList = value.kind.name.toList ++ ':' :: name.toList := by
      simp
    rw [hkey, Text.cut?_append_cons (colon_notMem_name value.kind)]
  rw [savedRow, loadRow, hcut]
  by_cases hname : name = ""
  · subst hname
    simp
  · obtain ⟨c, rest, hc⟩ := List.exists_cons_of_ne_nil (mt String.toList_eq_nil_iff.1 hname)
    have hback : String.ofList (c :: rest) = name := by rw [← hc, String.ofList_toList]
    simp only [hc, Kind.ofName?_name, String.ofList_toList, hback, loadValue_savedText name h, if_neg hname]
    rfl

/-! ## All rows -/

theorem mapM_loadRow_savedRow : ∀ {entries : List (String × Value)}, (∀ entry ∈ entries, entry.2 ≠ .null) →
    (∀ entry ∈ entries, entry.1 ≠ "") → (entries.map savedRow).mapM loadRow = .ok entries
  | [], _, _ => rfl
  | entry :: entries, hnull, hname => by
    have ih := mapM_loadRow_savedRow (fun entry he => hnull entry (List.mem_cons_of_mem _ he))
      fun entry he => hname entry (List.mem_cons_of_mem _ he)
    rw [List.map_cons, List.mapM_cons, loadRow_savedRow (hnull entry List.mem_cons_self),
      if_neg (hname entry List.mem_cons_self), ih]
    rfl

/-- The first variable without a name is where loading stops. -/
theorem exists_mapM_loadRow_savedRow_eq_error : ∀ {entries : List (String × Value)},
    (∀ entry ∈ entries, entry.2 ≠ .null) → (∃ entry ∈ entries, entry.1 = "") →
    ∃ value, ("", value) ∈ entries ∧
      (entries.map savedRow).mapM loadRow = .error (.badKey (value.kind.name ++ ":"))
  | [], _, h => by simp at h
  | (name, value) :: entries, hnull, h => by
    rw [List.map_cons, List.mapM_cons, loadRow_savedRow (hnull _ List.mem_cons_self)]
    by_cases hname : name = ""
    · subst hname
      exact ⟨value, List.mem_cons_self, rfl⟩
    · have hrest : ∃ entry ∈ entries, entry.1 = "" := by
        obtain ⟨entry, he, hempty⟩ := h
        rcases List.mem_cons.1 he with rfl | he
        · exact absurd hempty hname
        · exact ⟨entry, he, hempty⟩
      obtain ⟨value', hmem, herror⟩ :=
        exists_mapM_loadRow_savedRow_eq_error (fun entry he => hnull entry (List.mem_cons_of_mem _ he)) hrest
      refine ⟨value', List.mem_cons_of_mem _ hmem, ?_⟩
      rw [if_neg hname, herror]
      rfl

/-! ## The store that is read -/

theorem setAll_cons (vars : Variables) (entry : String × Value) (entries : List (String × Value)) :
    vars.setAll (entry :: entries) = (vars.set entry.1 entry.2).setAll entries := rfl

theorem get?_setAll_of_notMem {name : String} : ∀ {entries : List (String × Value)} (vars : Variables),
    (∀ entry ∈ entries, entry.2 ≠ .null) → (∀ entry ∈ entries, entry.1 ≠ name) →
    (vars.setAll entries).get? name = vars.get? name
  | [], _, _, _ => rfl
  | entry :: entries, vars, hnull, hname => by
    rw [setAll_cons, get?_setAll_of_notMem _ (fun entry he => hnull entry (List.mem_cons_of_mem _ he))
      fun entry he => hname entry (List.mem_cons_of_mem _ he), get?_set _ _ _ (hnull entry List.mem_cons_self),
      if_neg (hname entry List.mem_cons_self)]

theorem get?_setAll_of_mem {name : String} {value : Value} : ∀ {entries : List (String × Value)} (vars : Variables),
    (∀ entry ∈ entries, entry.2 ≠ .null) → entries.Pairwise (fun a b => a.1 ≠ b.1) → (name, value) ∈ entries →
    (vars.setAll entries).get? name = some value
  | [], _, _, _, h => absurd h List.not_mem_nil
  | entry :: entries, vars, hnull, hdistinct, h => by
    have hnull' : ∀ entry ∈ entries, entry.2 ≠ .null := fun entry he => hnull entry (List.mem_cons_of_mem _ he)
    obtain ⟨hhead, htail⟩ := List.pairwise_cons.1 hdistinct
    rw [setAll_cons]
    rcases List.mem_cons.1 h with rfl | h
    · rw [get?_setAll_of_notMem _ hnull' fun entry he => (hhead entry he).symm,
        get?_set _ _ _ (hnull _ List.mem_cons_self), if_pos rfl]
    · exact get?_setAll_of_mem _ hnull' htail h

theorem mem_toList_iff {vars : Variables} {name : String} {value : Value} :
    (name, value) ∈ vars.toList ↔ vars.get? name = some value :=
  Std.TreeMap.mem_toList_iff_getElem?_eq_some

theorem pairwise_toList (vars : Variables) : vars.toList.Pairwise fun a b => a.1 ≠ b.1 :=
  (Std.TreeMap.distinct_keys_toList (t := vars.entries)).imp fun h he => h (by rw [he]; exact Std.ReflCmp.compare_self)

theorem NullFree.ne_null {vars : Variables} (h : vars.NullFree) : ∀ entry ∈ vars.toList, entry.2 ≠ .null :=
  fun _ he hn => h _ (hn ▸ mem_toList_iff.1 he)

/-- Set one after the other, the variables of a store make the store again. -/
theorem get?_setAll_toList {vars : Variables} (h : vars.NullFree) (name : String) :
    ((∅ : Variables).setAll vars.toList).get? name = vars.get? name := by
  cases hv : vars.get? name with
  | none =>
    rw [get?_setAll_of_notMem _ h.ne_null, get?_empty]
    rintro ⟨other, value⟩ he rfl
    rw [mem_toList_iff.1 he] at hv
    cases hv
  | some value => exact get?_setAll_of_mem _ h.ne_null (pairwise_toList vars) (mem_toList_iff.2 hv)

/-! ## The whole table -/

section Table

variable {W : Type} {writer : TableWriter W} {written : W → List Char} {reader : TableReader}

/-- **The text of rows**, behind the names of the columns; without rows there is none. -/
def tableText : List SavedRow → List Char
  | [] => []
  | rows => (SavedRow.columns :: rows.map SavedRow.fields).flatMap writeRecord

/-- Behind what is written already, a documented writer puts row after row. -/
theorem exists_foldlM_saveRow_of_ne_nil (hwriter : writer.Documented written) : ∀ (rows : List SavedRow) (w : W),
    written w ≠ [] → ∃ w', rows.foldlM (saveRow writer) w = .ok w' ∧
      written w' = written w ++ (rows.map SavedRow.fields).flatMap writeRecord
  | [], w, _ => ⟨w, rfl, by simp⟩
  | row :: rows, w, h => by
    obtain ⟨w₁, hrow, htext₁⟩ := hwriter.next w row h
    obtain ⟨w₂, hrows, htext₂⟩ := exists_foldlM_saveRow_of_ne_nil hwriter rows w₁ (by simp [htext₁, h])
    refine ⟨w₂, ?_, ?_⟩
    · rw [List.foldlM_cons, saveRow, hrow]
      exact hrows
    · rw [htext₂, htext₁, List.map_cons, List.flatMap_cons, List.append_assoc]

/-- From the start it comes to the text of the rows. -/
theorem exists_foldlM_saveRow (hwriter : writer.Documented written) (rows : List SavedRow) :
    ∃ w, rows.foldlM (saveRow writer) writer.empty = .ok w ∧ written w = tableText rows := by
  cases rows with
  | nil => exact ⟨writer.empty, rfl, hwriter.empty⟩
  | cons row rows =>
    obtain ⟨w₁, hrow, htext₁⟩ := hwriter.first writer.empty row hwriter.empty
    have hne : written w₁ ≠ [] := by
      rw [htext₁]
      simp [writeRecord]
    obtain ⟨w₂, hrows, htext₂⟩ := exists_foldlM_saveRow_of_ne_nil hwriter rows w₁ hne
    refine ⟨w₂, ?_, ?_⟩
    · rw [List.foldlM_cons, saveRow, hrow]
      exact hrows
    · rw [htext₂, htext₁]
      simp [tableText]

/-- **With a documented writer saving succeeds.** -/
theorem save_eq (hwriter : writer.Documented written) (vars : Variables) :
    vars.save writer = .ok (String.ofList (tableText (vars.toList.map savedRow))) := by
  obtain ⟨w, hw, htext⟩ := exists_foldlM_saveRow hwriter (vars.toList.map savedRow)
  rw [save, hw]
  show ((writer.finish w).mapError SaveFault.unfinished).bind _ = _
  rw [hwriter.finish w, htext]
  show (Text.ofBytes _).mapError _ = _
  rw [Text.ofBytes_toUTF8]
  rfl

/-- **A documented reader finds the rows** of the text that is written. -/
theorem rows_of_tableText (hreader : reader.Documented) (rows : List SavedRow) :
    reader.rows (String.ofList (tableText rows)) = rows.map .ok := by
  cases rows with
  | nil => exact hreader.rows_of_nil _ (by simpa [tableText] using Spells.nil)
  | cons row rows =>
    refine hreader.rows_of_cons _ _ ?_
    rw [String.toList_ofList]
    refine spells_flatMap_writeRecord ?_
    intro record hr
    rcases List.mem_cons.1 hr with rfl | hr
    · decide
    · obtain ⟨row, -, rfl⟩ := List.mem_map.1 hr
      simp [SavedRow.fields]

/-- What is saved is loaded as the entries of its rows. -/
theorem load_tableText (hreader : reader.Documented) (rows : List SavedRow) :
    load reader (String.ofList (tableText rows)) = (rows.mapM loadRow).map (setAll ∅) := by
  have hfound : (rows.map Except.ok).mapM loadFound = rows.mapM loadRow := List.mapM_map
  rw [load, rows_of_tableText hreader, hfound]
  rfl

/-- **A store without `null` and without an empty name is loaded as it was saved.** -/
theorem exists_load_tableText (hreader : reader.Documented) {vars : Variables} (h : vars.NullFree)
    (hname : vars.get? "" = none) : ∃ loaded,
      load reader (String.ofList (tableText (vars.toList.map savedRow))) = .ok loaded ∧
        ∀ name, loaded.get? name = vars.get? name := by
  have hnames : ∀ entry ∈ vars.toList, entry.1 ≠ "" := by
    rintro ⟨name, value⟩ he rfl
    rw [mem_toList_iff.1 he] at hname
    cases hname
  refine ⟨_, ?_, get?_setAll_toList h⟩
  rw [load_tableText hreader, mapM_loadRow_savedRow h.ne_null hnames]
  rfl

/-- **A variable with the empty name makes all that was saved unreadable.** -/
theorem load_tableText_eq_error (hreader : reader.Documented) {vars : Variables} (h : vars.NullFree) {value : Value}
    (hname : vars.get? "" = some value) : load reader (String.ofList (tableText (vars.toList.map savedRow))) =
      .error (.badKey (value.kind.name ++ ":")) := by
  obtain ⟨value', hmem, herror⟩ :=
    exists_mapM_loadRow_savedRow_eq_error h.ne_null ⟨("", value), mem_toList_iff.2 hname, rfl⟩
  rw [mem_toList_iff.1 hmem, Option.some.injEq] at hname
  subst hname
  rw [load_tableText hreader, herror]
  rfl

/-- **Saved variables load back**, through any writer and reader that do what their documentation says. After any edits
saving succeeds, and what is saved is taken by any other store exactly when no variable has the empty name; the other
store then has the same variables and no others. -/
theorem restore_save_after (hwriter : writer.Documented written) (hreader : reader.Documented) (edits : List Edit)
    (other : Variables) : ∃ text, (after reader edits).save writer = .ok text ∧
      ((other.restore reader text).1 = .ok () ↔ (after reader edits).get? "" = none) ∧
      ((other.restore reader text).1 = .ok () →
        ∀ name, (other.restore reader text).2.get? name = (after reader edits).get? name) := by
  have hnull := nullFree_after reader edits
  generalize after reader edits = vars at hnull ⊢
  refine ⟨_, save_eq hwriter vars, ?_⟩
  cases hname : vars.get? "" with
  | none =>
    obtain ⟨loaded, hload, hget⟩ := exists_load_tableText hreader hnull hname
    simp [restore, hload, hget]
  | some value =>
    have hload := load_tableText_eq_error hreader hnull hname
    simp [restore, hload]

end Table

/-- A comma in the name, a quote and a line end in the value, and a store that held something else. -/
theorem restore_save_after_quoted : ∃ text,
    (after reader [.set "a,b" (.string "\"\n")]).save writer = .ok text ∧
      (restore (set ∅ "old" (.bool true)) reader text).1 = .ok () ∧
      (restore (set ∅ "old" (.bool true)) reader text).2.get? "a,b" = some (.string "\"\n") ∧
      (restore (set ∅ "old" (.bool true)) reader text).2.get? "old" = none := by
  obtain ⟨text, hsave, hiff, hget⟩ :=
    restore_save_after documented_writer documented_reader [.set "a,b" (.string "\"\n")] (set ∅ "old" (.bool true))
  have hok := hiff.2 (by decide +kernel)
  exact ⟨text, hsave, hok, (hget hok "a,b").trans (by decide +kernel), (hget hok "old").trans (by decide +kernel)⟩

end Dialogue.Variables
