import Mathlib
import Dialogue.Node.Writer
import Dialogue.Proofs.Text.Character
import Dialogue.Proofs.Text.Line

/-!
# Headers that read back

A header line gives its key and its value back when the key is one word without a colon (`splitHeader?_headerLine`), and
the text of a position gives the position back (`readPosition?_positionText`). Hence the header lines of a node, in any
order that names every field, give a draft of the node (`node_ofLines`).
-/

namespace Dialogue

/-- **A key that reads back**: one word without a colon, and not the name of a field. -/
structure IsKey (key : String) : Prop where
  ne_nil : key.toList ≠ []
  not_blank : ∀ c ∈ key.toList, Text.isBlank c = false
  no_colon : ':' ∉ key.toList
  not_field : ∀ field : Field, key ≠ field.name

theorem Field.ofName?_eq_some_iff {key : String} {field : Field} : ofName? key = some field ↔ key = field.name := by
  constructor
  · intro h
    unfold ofName? at h
    split at h <;> cases h <;> rfl
  · rintro rfl
    exact ofName?_name field

theorem Field.ofName?_eq_none_iff {key : String} : ofName? key = none ↔ ∀ field : Field, key ≠ field.name := by
  constructor
  · intro h field hf
    rw [ofName?_eq_some_iff.2 hf] at h
    cases h
  · intro h
    cases hf : ofName? key with
    | none => rfl
    | some field => exact absurd (ofName?_eq_some_iff.1 hf) (h field)

/-- The names of fields are words without a colon. -/
theorem Field.name_plain (field : Field) :
    field.name.toList ≠ [] ∧ (∀ c ∈ field.name.toList, Text.isBlank c = false) ∧ ':' ∉ field.name.toList := by
  cases field <;> simp [name, Text.isBlank, Text.inRanges, Text.blankRanges]

namespace Node

/-! ## One header line -/

theorem splitHeader?_headerLine {key : List Char} (hn : key ≠ []) (hb : ∀ c ∈ key, Text.isBlank c = false)
    (hc : ':' ∉ key) (value : List Char) : splitHeader? (headerLine key value) = some (key, value) := by
  have hblank : key.any Text.isBlank = false := by
    rw [List.any_eq_false]
    intro c h
    simp [hb c h]
  simp [splitHeader?, headerLine, Text.cut?_append_cons hc, Text.trim_of_forall_not_isBlank hb, hn, hblank]

theorem allBlank_headerLine (key value : List Char) : Text.allBlank (headerLine key value) = false := by
  rw [Text.allBlank, List.all_eq_false]
  exact ⟨':', by simp [headerLine], by decide⟩

/-- A header line never starts or ends a body: it holds a colon. -/
theorem headerLine_ne_bodyStart (key value : List Char) : headerLine key value ≠ bodyStart := by
  intro h
  have hm : ':' ∈ bodyStart := h ▸ by simp [headerLine]
  exact absurd hm (by decide)

/-! ## Positions -/

theorem plain_of_mem_intText {i : Int} {c : Char} (h : c ∈ Text.intText i) : c = '-' ∨ c.isDigit := by
  cases i with
  | ofNat n => exact .inr (Text.isDigit_of_mem_natText h)
  | negSucc n =>
    rcases List.mem_cons.1 h with h | h
    · exact .inl h
    · exact .inr (Text.isDigit_of_mem_natText h)

theorem isBlank_eq_false_of_mem_intText {i : Int} {c : Char} (h : c ∈ Text.intText i) : Text.isBlank c = false := by
  rcases plain_of_mem_intText h with rfl | h
  · decide
  · exact Text.isBlank_eq_false_of_isDigit h

theorem notMem_intText {c : Char} (hd : c ≠ '-') (hn : c.isDigit = false) (i : Int) : c ∉ Text.intText i := by
  intro h
  rcases plain_of_mem_intText h with h | h
  · exact hd h
  · simp [hn] at h

theorem readCoordinate?_intText (x : Int32) : readCoordinate? (Text.intText x.toInt) = some x := by
  have h : Int32.minValue.toInt ≤ x.toInt ∧ x.toInt ≤ Int32.maxValue.toInt :=
    ⟨Int32.minValue_le_toInt x, Int32.toInt_le x⟩
  rw [readCoordinate?, Text.trim_of_forall_not_isBlank fun c => isBlank_eq_false_of_mem_intText,
    Text.readInt?_intText, Option.filter_some, if_pos (by simpa using h)]
  simp

theorem readPosition?_positionText (position : Position) :
    readPosition? (positionText position) = some position := by
  have hc : ',' ∉ Text.intText position.x.toInt := notMem_intText (by decide) (by decide) _
  simp [readPosition?, positionText, Text.cut?_append_cons hc, readCoordinate?_intText]

theorem notMem_positionText {c : Char} (hc : c ≠ ',') (hd : c ≠ '-') (hn : c.isDigit = false) (position : Position) :
    c ∉ positionText position := by
  simp [positionText, hc, notMem_intText hd hn]

/-! ## The header lines of a node -/

/-- The draft with one field of another node. -/
def withField (target : Node) (draft : Node) : Field → Node
  | .title => { draft with title := target.title }
  | .tags => { draft with tags := target.tags }
  | .position => { draft with position := target.position }
  | .parent => { draft with parent := target.parent }

/-- The line of a field sets that field. -/
theorem node_addLine_field {target : Node} {field : Field} {value : List Char}
    (h : target.fieldValue? field = some value) (draft : Draft) (number : Nat) :
    (draft.addLine (number, headerLine field.name.toList value)).node = withField target draft.node field := by
  obtain ⟨hn, hb, hc⟩ := field.name_plain
  simp only [Draft.addLine, allBlank_headerLine, splitHeader?_headerLine hn hb hc, String.ofList_toList,
    Field.ofName?_name, Draft.setField, Bool.false_eq_true, if_false]
  cases field with
  | title =>
    cases h
    simp [withField]
  | tags =>
    cases h
    simp [withField]
  | position =>
    cases h
    simp [withField, readPosition?_positionText]
  | parent =>
    obtain ⟨parent, hp, rfl⟩ := Option.map_eq_some_iff.1 h
    simp [withField, hp]

/-- The lines of fields set those fields. A parent that is not there has no line, and none is there to begin with. -/
theorem node_foldl_fields {target : Node} : ∀ {order : List Field} {lines : List NumberedLine} {draft : Draft},
    (draft.node.parent = none ∨ draft.node.parent = target.parent) →
    lines.map Prod.snd = order.filterMap (fun field =>
      (target.fieldValue? field).map (headerLine field.name.toList)) →
    (lines.foldl Draft.addLine draft).node = order.foldl (withField target) draft.node
  | [], lines, draft, _, h => by
    rw [List.map_eq_nil_iff.1 h]
    rfl
  | field :: order, lines, draft, hp, h => by
    rw [List.filterMap_cons] at h
    cases hv : target.fieldValue? field with
    | none =>
      have hf : field = .parent ∧ target.parent = none := by
        cases field <;> simp_all [fieldValue?]
      have hd : withField target draft.node field = draft.node := by
        obtain ⟨rfl, ht⟩ := hf
        have : draft.node.parent = none := by
          rcases hp with hp | hp
          · exact hp
          · rw [hp, ht]
        simp only [withField, ht]
        rw [← this]
      rw [hv] at h
      rw [List.foldl_cons, hd]
      exact node_foldl_fields hp h
    | some value =>
      rw [hv] at h
      obtain ⟨line, lines, rfl, hl, hr⟩ := List.map_eq_cons_iff.1 h
      obtain ⟨number, text⟩ := line
      simp only at hl
      subst hl
      have hn := node_addLine_field hv draft number
      rw [List.foldl_cons, List.foldl_cons, ← hn]
      refine node_foldl_fields ?_ hr
      rw [hn]
      cases field <;> simp [withField, hp]

theorem foldl_withField (target : Node) : ∀ (order : List Field) (draft : Node),
    order.foldl (withField target) draft = { draft with
      title := if .title ∈ order then target.title else draft.title
      tags := if .tags ∈ order then target.tags else draft.tags
      position := if .position ∈ order then target.position else draft.position
      parent := if .parent ∈ order then target.parent else draft.parent }
  | [], draft => by simp
  | field :: order, draft => by
    rw [List.foldl_cons, foldl_withField target order]
    cases field <;> simp [withField]

/-- The lines of the other headers are kept in their order. -/
theorem node_foldl_extra : ∀ {extra : List Header} {lines : List NumberedLine} {draft : Draft},
    (∀ header ∈ extra, IsKey header.key) →
    lines.map Prod.snd = extra.map (fun header => headerLine header.key.toList header.value.toList) →
    (lines.foldl Draft.addLine draft).node = { draft.node with extra := draft.node.extra ++ extra }
  | [], lines, draft, _, h => by
    rw [List.map_eq_nil_iff.1 h]
    simp
  | header :: extra, lines, draft, hk, h => by
    rw [List.map_cons] at h
    obtain ⟨line, lines, rfl, hl, hr⟩ := List.map_eq_cons_iff.1 h
    obtain ⟨number, text⟩ := line
    simp only at hl
    subst hl
    have hh := hk header List.mem_cons_self
    have hn : (draft.addLine (number, headerLine header.key.toList header.value.toList)).node =
        { draft.node with extra := draft.node.extra ++ [header] } := by
      simp [Draft.addLine, allBlank_headerLine, splitHeader?_headerLine hh.ne_nil hh.not_blank hh.no_colon,
        Field.ofName?_eq_none_iff.2 hh.not_field]
    rw [List.foldl_cons, node_foldl_extra (fun other ho => hk other (List.mem_cons_of_mem _ ho)) hr, hn]
    simp

/-- **The header lines of a node give the node back**, its body apart. -/
theorem node_ofLines {node : Node} {order : List Field} (ho : ∀ field, field ∈ order)
    (hk : ∀ header ∈ node.extra, IsKey header.key) {lines : List NumberedLine}
    (h : lines.map Prod.snd = node.headerLines order) : (Draft.ofLines lines).node = { node with body := "" } := by
  obtain ⟨fields, extra, rfl, hf, he⟩ := List.map_eq_append_iff.1 h
  rw [Draft.ofLines, List.foldl_append, node_foldl_extra hk he, node_foldl_fields (.inl rfl) hf, foldl_withField]
  simp [ho]

end Node

end Dialogue
