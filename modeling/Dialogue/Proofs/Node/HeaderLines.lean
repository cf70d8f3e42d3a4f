import Mathlib
import Dialogue.Proofs.Node.Legible

/-!
# What becomes of header lines

The lines before the start of a body give headers (`IsHeader`), and these give a node: of the headers of a field the
last one counts, and the others are kept in their order (`ofHeaders`). Some lines are lost on the way: those that are no
headers, headers that are repeated later, and positions that cannot be read (`Lost`). A draft is the node of its
headers, and its warnings are those about the lines that are lost (`Draft.Follows`, `Draft.follows_ofLines`).
-/

namespace Dialogue

theorem Field.name_inj {field other : Field} : field.name = other.name ↔ field = other := by
  cases field <;> cases other <;> decide

namespace Node

/-! ## Header lines -/

/-- **A header line**: a key of one word with blanks around it, a colon, and the value; one space behind the colon does
not belong to it. -/
structure IsHeader (line key value : List Char) : Prop where
  parts : ∃ before after, line = before ++ ':' :: after ∧ ':' ∉ before ∧ Text.trim before = key ∧
    (after = ' ' :: value ∨ after = value ∧ value.head? ≠ some ' ')
  ne_nil : key ≠ []
  word : ∀ c ∈ key, Text.isBlank c = false

theorem splitHeader?_eq_some_iff {line key value : List Char} :
    splitHeader? line = some (key, value) ↔ IsHeader line key value := by
  constructor
  · intro h
    obtain ⟨hne, hword, -, -⟩ := of_splitHeader? h
    refine ⟨?_, hne, hword⟩
    unfold splitHeader? at h
    split at h
    · cases h
    · rename_i before after hcut
      refine ⟨before, after, by simpa using Text.eq_of_cut?_eq_some hcut, Text.notMem_of_cut? hcut, ?_⟩
      dsimp only at h
      split at h
      · cases h
      · simp only [Option.some.injEq, Prod.mk.injEq] at h
        obtain ⟨hkey, hvalue⟩ := h
        refine ⟨hkey, ?_⟩
        split at hvalue
        · exact .inl (by rw [hvalue])
        · rename_i hspace
          subst hvalue
          refine .inr ⟨rfl, ?_⟩
          intro hhead
          obtain ⟨rest, rfl⟩ := List.head?_eq_some_iff.1 hhead
          exact hspace rest rfl
  · rintro ⟨⟨before, after, rfl, hcolon, rfl, hafter⟩, hne, hword⟩
    have hblank : (Text.trim before).any Text.isBlank = false := by
      rw [List.any_eq_false]
      intro c hc
      rw [hword c hc]
      decide
    rw [splitHeader?, Text.cut?_append_cons hcolon]
    rcases hafter with rfl | ⟨rfl, hspace⟩
    · simp [hne, hblank]
    · simp only [hne, hblank, Bool.false_eq_true, or_self, if_false]
      split
      · exact absurd rfl hspace
      · rfl

theorem IsHeader.not_allBlank {line key value : List Char} (h : IsHeader line key value) :
    Text.allBlank line = false := by
  obtain ⟨before, after, rfl, -⟩ := h.parts
  rw [Text.allBlank, List.all_eq_false]
  exact ⟨':', by simp, by decide⟩

/-- The header that a line gives. -/
def header? (line : NumberedLine) : Option Header :=
  (splitHeader? line.2).map fun (key, value) => ⟨.ofList key, .ofList value⟩

theorem header?_eq_some_iff {line : NumberedLine} {header : Header} :
    header? line = some header ↔ IsHeader line.2 header.key.toList header.value.toList := by
  rw [← splitHeader?_eq_some_iff, header?, Option.map_eq_some_iff]
  constructor
  · rintro ⟨⟨key, value⟩, h, rfl⟩
    simpa using h
  · intro h
    exact ⟨_, h, by simp⟩

theorem IsHeader.header?_eq {line : NumberedLine} {key : String} {value : List Char}
    (h : IsHeader line.2 key.toList value) : header? line = some ⟨key, .ofList value⟩ := by
  rw [header?_eq_some_iff, String.toList_ofList]
  exact h

theorem isHeader_of_header? {line : NumberedLine} {header : Header} {key : String} (h : header? line = some header)
    (hkey : header.key = key) : IsHeader line.2 key.toList header.value.toList :=
  hkey ▸ header?_eq_some_iff.1 h

theorem header?_eq_none_iff {line : NumberedLine} : header? line = none ↔ ∀ key value, ¬IsHeader line.2 key value := by
  rw [header?, Option.map_eq_none_iff, Option.eq_none_iff_forall_ne_some]
  simp only [ne_eq, Prod.forall, splitHeader?_eq_some_iff]

/-- **The headers that lines give**, in their order. -/
def headersOf (lines : List NumberedLine) : List Header :=
  lines.filterMap header?

/-- The values of the headers of a field. -/
def valuesOf (field : Field) (headers : List Header) : List String :=
  (headers.filter (·.key = field.name)).map Header.value

/-- **The node that headers give.** Of the headers of a field the last one counts; what cannot be read as a position
counts as 0,0. Headers of no field are kept in their order. -/
def ofHeaders (headers : List Header) : Node where
  title := (valuesOf .title headers).getLast?.getD ""
  tags := (valuesOf .tags headers).getLast?.getD ""
  position := ((valuesOf .position headers).getLast?.bind fun value => readPosition? value.toList).getD {}
  parent := (valuesOf .parent headers).getLast?
  extra := headers.filter fun header => (Field.ofName? header.key).isNone

/-! ## One more header -/

section Concat

variable {headers : List Header} {header : Header} {field : Field} {lines : List NumberedLine} {line : NumberedLine}

theorem headersOf_concat (lines : List NumberedLine) (line : NumberedLine) :
    headersOf (lines ++ [line]) = headersOf lines ++ (header? line).toList := by
  rw [headersOf, List.filterMap_append, headersOf]
  cases h : header? line <;> simp [h]

theorem headersOf_concat_of_header? (h : header? line = some header) (lines : List NumberedLine) :
    headersOf (lines ++ [line]) = headersOf lines ++ [header] := by
  rw [headersOf_concat, h]
  rfl

theorem valuesOf_concat (field : Field) (headers : List Header) (header : Header) :
    valuesOf field (headers ++ [header]) =
      valuesOf field headers ++ if header.key = field.name then [header.value] else [] := by
  rw [valuesOf, List.filter_append, List.map_append, valuesOf]
  by_cases h : header.key = field.name <;> simp [h]

/-- The node with the value of a field. -/
def withValue (node : Node) (field : Field) (value : String) : Node :=
  match field with
  | .title => { node with title := value }
  | .tags => { node with tags := value }
  | .position => { node with position := (readPosition? value.toList).getD {} }
  | .parent => { node with parent := some value }

theorem ofHeaders_concat_field (h : header.key = field.name) (headers : List Header) :
    ofHeaders (headers ++ [header]) = (ofHeaders headers).withValue field header.value := by
  cases field <;> simp [ofHeaders, withValue, valuesOf_concat, h, Field.name_inj]

theorem ofHeaders_concat_other (h : Field.ofName? header.key = none) (headers : List Header) :
    ofHeaders (headers ++ [header]) = { ofHeaders headers with extra := (ofHeaders headers).extra ++ [header] } := by
  have hname : ∀ other : Field, header.key ≠ other.name := Field.ofName?_eq_none_iff.1 h
  simp [ofHeaders, valuesOf_concat, hname, h]

end Concat

/-- Where something holds of a place in lines and one more, it holds of a place in the lines or of the last one. -/
theorem exists_append_cons_concat_iff {α : Type} {P : List α → α → Prop} {l : List α} {a : α} :
    (∃ before x after, l ++ [a] = before ++ x :: after ∧ P before x) ↔
      (∃ before x after, l = before ++ x :: after ∧ P before x) ∨ P l a := by
  constructor
  · rintro ⟨before, x, after, heq, h⟩
    rcases List.eq_nil_or_concat after with rfl | ⟨after, y, rfl⟩
    · obtain ⟨rfl, hx⟩ := List.append_inj' heq rfl
      obtain rfl : a = x := by simpa using hx
      exact .inr h
    · have hsplit : l ++ [a] = (before ++ x :: after) ++ [y] := by simpa using heq
      obtain ⟨rfl, -⟩ := List.append_inj' hsplit rfl
      exact .inl ⟨before, x, after, rfl, h⟩
  · rintro (⟨before, x, after, rfl, h⟩ | h)
    · exact ⟨before, x, after ++ [a], by simp, h⟩
    · exact ⟨l, a, [], rfl, h⟩

/-! ## Lines that are lost -/

/-- **A line of headers that is lost, and the warning about it**: one that is no header, one whose field is given again
later, and a position that cannot be read. -/
inductive Lost (lines : List NumberedLine) : NumberedLine → Warning → Prop
  | skipped {line : NumberedLine} (hmem : line ∈ lines) (hblank : Text.allBlank line.2 = false)
      (h : ∀ key value, ¬IsHeader line.2 key value) : Lost lines line (.badHeader line.1 (.ofList line.2))
  | overridden {before between after : List NumberedLine} {line later : NumberedLine} {field : Field}
      {value value' : List Char} (hlines : lines = before ++ line :: (between ++ later :: after))
      (hline : IsHeader line.2 field.name.toList value) (hlater : IsHeader later.2 field.name.toList value') :
      Lost lines line (.repeatedHeader later.1 field)
  | unreadable {line : NumberedLine} {value : List Char} (hmem : line ∈ lines)
      (hline : IsHeader line.2 Field.position.name.toList value) (hread : readPosition? value = none) :
      Lost lines line (.badPosition line.1 (.ofList value))

/-- What the reader says about one more line. -/
inductive Tells (before : List NumberedLine) (line : NumberedLine) : Warning → Prop
  | badHeader (hblank : Text.allBlank line.2 = false) (h : header? line = none) :
      Tells before line (.badHeader line.1 (.ofList line.2))
  | repeatedHeader {header : Header} {field : Field} (h : header? line = some header) (hkey : header.key = field.name)
      (hgiven : valuesOf field (headersOf before) ≠ []) : Tells before line (.repeatedHeader line.1 field)
  | badPosition {header : Header} (h : header? line = some header) (hkey : header.key = Field.position.name)
      (hread : readPosition? header.value.toList = none) : Tells before line (.badPosition line.1 header.value)

section Tells

variable {before : List NumberedLine} {line : NumberedLine} {header : Header} {field : Field} {w : Warning}

theorem tells_iff_of_no_header (h : header? line = none) : Tells before line w ↔
    Text.allBlank line.2 = false ∧ w = .badHeader line.1 (.ofList line.2) := by
  constructor
  · intro hw
    cases hw with
    | badHeader hblank => exact ⟨hblank, rfl⟩
    | repeatedHeader h' => cases h.symm.trans h'
    | badPosition h' => cases h.symm.trans h'
  · rintro ⟨hblank, rfl⟩
    exact .badHeader hblank h

theorem tells_iff_of_field (h : header? line = some header) (hkey : header.key = field.name) : Tells before line w ↔
    (valuesOf field (headersOf before) ≠ [] ∧ w = .repeatedHeader line.1 field) ∨
      (field = .position ∧ readPosition? header.value.toList = none ∧ w = .badPosition line.1 header.value) := by
  constructor
  · intro hw
    cases hw with
    | badHeader _ h' => cases h.symm.trans h'
    | repeatedHeader h' hother hgiven =>
      cases h.symm.trans h'
      obtain rfl := Field.name_inj.1 (hkey.symm.trans hother)
      exact .inl ⟨hgiven, rfl⟩
    | badPosition h' hposition hread =>
      cases h.symm.trans h'
      exact .inr ⟨Field.name_inj.1 (hkey.symm.trans hposition), hread, rfl⟩
  · rintro (⟨hgiven, rfl⟩ | ⟨rfl, hread, rfl⟩)
    · exact .repeatedHeader h hkey hgiven
    · exact .badPosition h hkey hread

/-- Nothing is said about a header of no field. -/
theorem not_tells_of_other (h : header? line = some header) (hother : Field.ofName? header.key = none) :
    ¬Tells before line w := by
  have hname : ∀ field : Field, header.key ≠ field.name := Field.ofName?_eq_none_iff.1 hother
  intro hw
  cases hw with
  | badHeader _ h' => cases h.symm.trans h'
  | repeatedHeader h' hkey =>
    cases h.symm.trans h'
    exact hname _ hkey
  | badPosition h' hkey =>
    cases h.symm.trans h'
    exact hname _ hkey

end Tells

theorem exists_mem_of_valuesOf_ne_nil {lines : List NumberedLine} {field : Field}
    (h : valuesOf field (headersOf lines) ≠ []) : ∃ line ∈ lines, ∃ value, IsHeader line.2 field.name.toList value := by
  obtain ⟨value, hvalue⟩ := List.exists_mem_of_ne_nil _ h
  obtain ⟨header, hheader, -⟩ := List.mem_map.1 hvalue
  obtain ⟨hmem, hkey⟩ := List.mem_filter.1 hheader
  obtain ⟨line, hline, hgives⟩ := List.mem_filterMap.1 hmem
  exact ⟨line, hline, header.value.toList, isHeader_of_header? hgives (of_decide_eq_true hkey)⟩

theorem mem_valuesOf_of_isHeader {lines : List NumberedLine} {line : NumberedLine} {field : Field} {value : List Char}
    (hmem : line ∈ lines) (h : IsHeader line.2 field.name.toList value) :
    .ofList value ∈ valuesOf field (headersOf lines) := by
  refine List.mem_map.2 ⟨_, List.mem_filter.2 ⟨List.mem_filterMap.2 ⟨line, hmem, h.header?_eq⟩, ?_⟩, rfl⟩
  exact decide_eq_true rfl

/-- **The warnings about lines that are lost are those that the reader gives**, line after line. -/
theorem exists_lost_iff {lines : List NumberedLine} {w : Warning} : (∃ line, Lost lines line w) ↔
    ∃ before line after, lines = before ++ line :: after ∧ Tells before line w := by
  constructor
  · rintro ⟨line, h⟩
    cases h with
    | skipped hmem hblank h =>
      obtain ⟨before, after, hlines⟩ := List.append_of_mem hmem
      exact ⟨before, line, after, hlines, .badHeader hblank (header?_eq_none_iff.2 h)⟩
    | @overridden before between after _ later field value value' hlines hline hlater =>
      refine ⟨before ++ line :: between, later, after, by simp [hlines], .repeatedHeader hlater.header?_eq rfl ?_⟩
      exact List.ne_nil_of_mem (mem_valuesOf_of_isHeader (by simp) hline)
    | @unreadable _ value hmem hline hread =>
      obtain ⟨before, after, hlines⟩ := List.append_of_mem hmem
      exact ⟨before, line, after, hlines, .badPosition hline.header?_eq rfl (by rwa [String.toList_ofList])⟩
  · rintro ⟨before, line, after, rfl, h⟩
    have hmem : line ∈ before ++ line :: after := List.mem_append_right _ List.mem_cons_self
    cases h with
    | badHeader hblank h => exact ⟨line, .skipped hmem hblank (header?_eq_none_iff.1 h)⟩
    | @repeatedHeader header field h hkey hgiven =>
      obtain ⟨first, hfirst, value, hvalue⟩ := exists_mem_of_valuesOf_ne_nil hgiven
      obtain ⟨front, between, rfl⟩ := List.append_of_mem hfirst
      have hlines : (front ++ first :: between) ++ line :: after = front ++ first :: (between ++ line :: after) := by
        simp
      exact ⟨first, .overridden hlines hvalue (isHeader_of_header? h hkey)⟩
    | @badPosition header h hkey hread =>
      have hlost := Lost.unreadable hmem (isHeader_of_header? h hkey) hread
      rw [String.ofList_toList] at hlost
      exact ⟨line, hlost⟩

/-! ## Drafts -/

namespace Draft

variable {draft : Draft} {line : NumberedLine} {header : Header} {field : Field} {lines : List NumberedLine}

theorem addLine_of_header?_eq_none (h : header? line = none) (draft : Draft) : draft.addLine line =
    { draft with warnings := draft.warnings ++
        if Text.allBlank line.2 then [] else [.badHeader line.1 (.ofList line.2)] } := by
  rw [header?, Option.map_eq_none_iff] at h
  by_cases hblank : Text.allBlank line.2 = true <;> simp [addLine, hblank, h]

theorem addLine_of_header? (h : header? line = some header) (draft : Draft) : draft.addLine line =
    match Field.ofName? header.key with
    | some field => { draft with started := true }.setField line.1 field header.value.toList
    | none => { draft with started := true, node.extra := draft.node.extra ++ [header] } := by
  have hblank := (header?_eq_some_iff.1 h).not_allBlank
  obtain ⟨⟨key, value⟩, hsplit, rfl⟩ := Option.map_eq_some_iff.1 h
  cases hfield : Field.ofName? (.ofList key) <;> simp [addLine, hblank, hsplit, hfield]

theorem node_setField (draft : Draft) (number : Nat) (field : Field) (value : String) :
    (draft.setField number field value.toList).node = draft.node.withValue field value := by
  cases field with
  | title | tags | parent => simp [setField, withValue]
  | position => cases h : readPosition? value.toList <;> simp [setField, withValue, h]

theorem mem_given_setField (draft : Draft) (number : Nat) (field other : Field) (value : List Char) :
    other ∈ (draft.setField number field value).given ↔ other ∈ draft.given ∨ other = field := by
  have hgiven : (draft.setField number field value).given =
      if field ∈ draft.given then draft.given else draft.given ++ [field] := by
    cases field with
    | title | tags | parent => rfl
    | position => cases h : readPosition? value <;> simp [setField, h]
  rw [hgiven]
  split
  · rename_i h
    constructor
    · exact .inl
    · rintro (h' | rfl)
      · exact h'
      · exact h
  · simp

theorem started_setField (draft : Draft) (number : Nat) (field : Field) (value : List Char) :
    (draft.setField number field value).started = draft.started := by
  cases field with
  | title | tags | parent => rfl
  | position => cases h : readPosition? value <;> simp [setField, h]

theorem mem_warnings_setField (draft : Draft) (number : Nat) (field : Field) (value : List Char) (w : Warning) :
    w ∈ (draft.setField number field value).warnings ↔ w ∈ draft.warnings ∨
      (field ∈ draft.given ∧ w = .repeatedHeader number field) ∨
      (field = .position ∧ readPosition? value = none ∧ w = .badPosition number (.ofList value)) := by
  by_cases hgiven : field ∈ draft.given
  all_goals
    cases field with
    | title | tags | parent => simp [setField, hgiven]
    | position => cases h : readPosition? value <;> simp [setField, hgiven, h]

/-- **The draft is what the lines say**, and its warnings are about lines that are lost. -/
structure Follows (lines : List NumberedLine) (draft : Draft) : Prop where
  node : draft.node = ofHeaders (headersOf lines)
  given : ∀ field, field ∈ draft.given ↔ valuesOf field (headersOf lines) ≠ []
  started : draft.started = true ↔ headersOf lines ≠ []
  warnings : ∀ w, w ∈ draft.warnings ↔ ∃ before line after, lines = before ++ line :: after ∧ Tells before line w

theorem follows_nil : Follows [] {} where
  node := rfl
  given field := by simp [headersOf, valuesOf]
  started := by simp [headersOf]
  warnings w := by simp

section AddLine

variable (h : Follows lines draft)

include h

theorem Follows.addLine_no_header (hheader : header? line = none) : Follows (lines ++ [line]) (draft.addLine line) := by
  have hheaders : headersOf (lines ++ [line]) = headersOf lines := by
    rw [headersOf_concat, hheader]
    exact List.append_nil _
  rw [addLine_of_header?_eq_none hheader]
  refine ⟨by rw [hheaders, ← h.node], by rw [hheaders]; exact h.given, by rw [hheaders]; exact h.started, ?_⟩
  intro w
  rw [exists_append_cons_concat_iff, List.mem_append, h.warnings w, tells_iff_of_no_header hheader]
  cases hblank : Text.allBlank line.2 <;> simp

theorem Follows.addLine_other (hheader : header? line = some header) (hfield : Field.ofName? header.key = none) :
    Follows (lines ++ [line]) (draft.addLine line) := by
  have hheaders := headersOf_concat_of_header? hheader lines
  have hname : ∀ field : Field, header.key ≠ field.name := Field.ofName?_eq_none_iff.1 hfield
  rw [addLine_of_header? hheader, hfield]
  refine ⟨?_, ?_, by simp [hheaders], ?_⟩
  · rw [hheaders, ofHeaders_concat_other hfield, ← h.node]
  · intro field
    rw [hheaders, valuesOf_concat, if_neg (hname field), List.append_nil]
    exact h.given field
  · intro w
    rw [exists_append_cons_concat_iff, h.warnings w]
    exact (or_iff_left (not_tells_of_other hheader hfield)).symm

theorem Follows.addLine_field (hheader : header? line = some header) (hkey : header.key = field.name) :
    Follows (lines ++ [line]) (draft.addLine line) := by
  have hheaders := headersOf_concat_of_header? hheader lines
  rw [addLine_of_header? hheader, Field.ofName?_eq_some_iff.2 hkey]
  refine ⟨?_, ?_, by simp [started_setField, hheaders], ?_⟩
  · rw [hheaders, ofHeaders_concat_field hkey, ← h.node]
    exact node_setField _ _ _ _
  · intro other
    rw [mem_given_setField, hheaders, valuesOf_concat, hkey]
    rcases eq_or_ne field other with rfl | hne
    · simp
    · simp [Field.name_inj, hne, hne.symm, h.given]
  · intro w
    rw [mem_warnings_setField, exists_append_cons_concat_iff, h.warnings w, h.given field,
      tells_iff_of_field hheader hkey, String.ofList_toList]

/-- One more line. -/
theorem Follows.addLine (line : NumberedLine) : Follows (lines ++ [line]) (draft.addLine line) := by
  cases hheader : header? line with
  | none => exact h.addLine_no_header hheader
  | some header =>
    cases hfield : Field.ofName? header.key with
    | none => exact h.addLine_other hheader hfield
    | some field => exact h.addLine_field hheader (Field.ofName?_eq_some_iff.1 hfield)

end AddLine

/-- **The draft of header lines** is the node of their headers, and it warns of every line that is lost. -/
theorem follows_ofLines (lines : List NumberedLine) : Follows lines (ofLines lines) := by
  induction lines using List.reverseRecOn with
  | nil => exact follows_nil
  | append_singleton lines line ih =>
    rw [ofLines, List.foldl_append]
    exact ih.addLine line

end Draft

end Node

end Dialogue
