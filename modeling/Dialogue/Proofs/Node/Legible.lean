import Mathlib
import Dialogue.Proofs.Node.Header

/-!
# What every node has that was read

The values of its headers lie on one line each, the keys of its other headers are keys, and no line of its body ends the
body (`legible_of_mem_parse`): a header is taken from one line, and a body from the lines between two marks.
-/

namespace Dialogue.Node

/-- The texts that are written as values of headers, the position apart. -/
def values (node : Node) : List String :=
  node.title :: node.tags :: (node.parent.toList ++ node.extra.map Header.value)

/-- The lines of the body, cut at each `\n`. -/
def pieces (node : Node) : List (List Char) :=
  node.body.toList.splitOn '\n'

theorem mem_values {node : Node} {value : String} : value ∈ node.values ↔
    value = node.title ∨ value = node.tags ∨ node.parent = some value ∨
      ∃ header ∈ node.extra, header.value = value := by
  simp [values]

/-- **Values on one line, keys that read back, and a body without the line that ends bodies.** -/
structure Legible (node : Node) : Prop where
  values_line : ∀ value ∈ node.values, '\n' ∉ value.toList
  keys : ∀ header ∈ node.extra, IsKey header.key
  no_bodyEnd : bodyEnd ∉ node.pieces

/-! ## Headers -/

/-- Key and value are parts of the line, and the key is one word without a colon. -/
theorem of_splitHeader? {line key value : List Char} (h : splitHeader? line = some (key, value)) :
    key ≠ [] ∧ (∀ c ∈ key, Text.isBlank c = false) ∧ ':' ∉ key ∧ ∀ c ∈ value, c ∈ line := by
  unfold splitHeader? at h
  split at h
  · cases h
  · rename_i before after hcut
    have hline := Text.eq_of_cut?_eq_some hcut
    dsimp only at h
    split at h
    · cases h
    · rename_i hkey
      simp only [not_or, Bool.not_eq_true, List.any_eq_false] at hkey
      simp only [Option.some.injEq, Prod.mk.injEq] at h
      obtain ⟨rfl, hv⟩ := h
      refine ⟨hkey.1, hkey.2, fun hc => Text.notMem_of_cut? hcut (Text.mem_of_mem_trim hc), ?_⟩
      intro c hc
      have ha : c ∈ after := by
        rw [← hv] at hc
        split at hc
        · exact List.mem_cons_of_mem _ hc
        · exact hc
      rw [hline]
      exact List.mem_append_right _ ha

section Draft

variable {draft : Draft} {number : Nat}

/-- Taking the value of a field keeps the other values; the body and the other headers stay. -/
theorem setField_parts (draft : Draft) (number : Nat) (field : Field) (value : List Char) :
    (∀ v ∈ (draft.setField number field value).node.values, v ∈ draft.node.values ∨ v = .ofList value) ∧
      (draft.setField number field value).node.extra = draft.node.extra ∧
      (draft.setField number field value).node.body = draft.node.body := by
  simp only [mem_values]
  unfold Draft.setField
  cases field <;> dsimp only
  case title => exact ⟨fun v hv => by grind, rfl, rfl⟩
  case tags => exact ⟨fun v hv => by grind, rfl, rfl⟩
  case parent =>
    refine ⟨?_, rfl, rfl⟩
    intro v hv
    simp only [Option.some.injEq, @eq_comm _ (String.ofList value)] at hv
    grind
  case position => split <;> exact ⟨fun v hv => .inl hv, rfl, rfl⟩

theorem legible_addLine (hd : draft.node.Legible) {line : List Char} (hl : '\n' ∉ line) :
    (draft.addLine (number, line)).node.Legible := by
  unfold Draft.addLine
  dsimp only
  split
  · exact hd
  split
  · exact hd
  · rename_i key value hsplit
    obtain ⟨hn, hb, hc, hv⟩ := of_splitHeader? hsplit
    have hvalue : '\n' ∉ (String.ofList value).toList := fun h => hl (hv _ (by simpa using h))
    split
    · rename_i field _
      obtain ⟨hvalues, hextra, hbody⟩ := setField_parts { draft with started := true } number field value
      refine ⟨?_, fun header hm => hd.keys header (hextra ▸ hm), ?_⟩
      · intro v hm
        rcases hvalues v hm with hm | rfl
        · exact hd.values_line v hm
        · exact hvalue
      · rw [pieces, hbody]
        exact hd.no_bodyEnd
    · rename_i hfield
      refine ⟨?_, ?_, hd.no_bodyEnd⟩
      · intro v hm
        have hm : v ∈ draft.node.values ∨ v = .ofList value := by
          simpa [values, or_assoc] using hm
        rcases hm with hm | rfl
        · exact hd.values_line v hm
        · exact hvalue
      · intro header hm
        rcases List.mem_append.1 hm with hm | hm
        · exact hd.keys header hm
        · rw [List.mem_singleton.1 hm]
          exact ⟨by simpa using hn, by simpa using hb, by simpa using hc, Field.ofName?_eq_none_iff.1 hfield⟩

theorem legible_foldl_addLine : ∀ {lines : List NumberedLine} {draft : Draft}, draft.node.Legible →
    (∀ line ∈ lines, '\n' ∉ line.2) → (lines.foldl Draft.addLine draft).node.Legible
  | [], _, hd, _ => hd
  | (number, line) :: lines, _, hd, hl => by
    rw [List.foldl_cons]
    exact legible_foldl_addLine (legible_addLine hd (hl (number, line) List.mem_cons_self))
      fun other ho => hl other (List.mem_cons_of_mem _ ho)

theorem legible_ofLines {lines : List NumberedLine} (hl : ∀ line ∈ lines, '\n' ∉ line.2) :
    (Draft.ofLines lines).node.Legible := by
  refine legible_foldl_addLine ⟨?_, ?_, ?_⟩ hl
  · simp [values]
  · simp
  · simp [pieces, bodyEnd]

end Draft

/-! ## Bodies -/

/-- The lines of a body that is read are the lines it was read from; without any, the body has one empty line. -/
theorem pieces_finish (draft : Draft) (index : Nat) {body : List NumberedLine} (hl : ∀ line ∈ body, '\n' ∉ line.2)
    (hb : body ≠ []) : (finish draft index body).1.pieces = body.map Prod.snd := by
  simp only [finish, pieces, String.toList_ofList]
  exact List.splitOn_intercalate '\n' (by simpa using fun line number hm => hl (number, line) hm) (by simpa using hb)

theorem legible_finish {draft : Draft} (hd : draft.node.Legible) (index : Nat) {body : List NumberedLine}
    (hl : ∀ line ∈ body, '\n' ∉ line.2) (he : ∀ line ∈ body, line.2 ≠ bodyEnd) :
    (finish draft index body).1.Legible := by
  refine ⟨hd.values_line, hd.keys, ?_⟩
  intro hm
  by_cases hb : body = []
  · subst hb
    simp [finish, pieces, bodyEnd] at hm
  · rw [pieces_finish draft index hl hb] at hm
    obtain ⟨line, hline, hsnd⟩ := List.mem_map.1 hm
    exact he line hline hsnd

/-! ## Texts -/

theorem mem_of_mem_untilLine_fst {mark : List Char} {lines : List NumberedLine} {line : NumberedLine}
    (h : line ∈ (untilLine mark lines).1) : line ∈ lines ∧ line.2 ≠ mark :=
  ⟨(List.takeWhile_sublist _).mem h, by simpa using List.mem_takeWhile_imp h⟩

theorem mem_of_mem_untilLine_snd {mark : List Char} {lines : List NumberedLine} {line : NumberedLine}
    (h : line ∈ (untilLine mark lines).2) : line ∈ lines :=
  (List.dropWhile_sublist _).mem h

theorem legible_of_mem_readBlocks {node : Node} : ∀ {index : Nat} {lines : List NumberedLine},
    (∀ line ∈ lines, '\n' ∉ line.2) → node ∈ (readBlocks index lines).1 → node.Legible := by
  intro index lines
  fun_induction readBlocks index lines with
  | case1 => simp
  | case2 index lines draft start rest hrest first warnings hfirst nodes later hnodes ih =>
    intro hl hm
    have hr : ∀ line ∈ rest, '\n' ∉ line.2 := fun line hline =>
      hl line (mem_of_mem_untilLine_snd (hrest ▸ List.mem_cons_of_mem _ hline))
    rcases List.mem_cons.1 hm with rfl | hm
    · have hd : draft.node.Legible := legible_ofLines fun line hline => hl line (mem_of_mem_untilLine_fst hline).1
      have hf := legible_finish hd index (fun line hline => hr line (mem_of_mem_untilLine_fst hline).1)
        fun line hline => (mem_of_mem_untilLine_fst hline).2
      rwa [hfirst] at hf
    · refine ih ?_ (by rwa [hnodes])
      intro line hline
      exact hr line (mem_of_mem_untilLine_snd ((List.drop_sublist 1 _).mem hline))

theorem newline_notMem_of_mem_numberedLines {cs : List Char} {line : NumberedLine}
    (h : line ∈ Text.numberedLines cs) : '\n' ∉ line.2 := by
  obtain ⟨pair, hp, rfl⟩ := List.mem_map.1 h
  exact Text.newline_notMem_of_mem_lines (List.fst_mem_of_mem_zipIdx hp)

/-- **Every node that is read is legible.** -/
theorem legible_of_mem_parse {text : String} {nodes : List Node} {warnings : List Warning}
    (h : parse text = .ok (nodes, warnings)) {node : Node} (hn : node ∈ nodes) : node.Legible := by
  simp only [parse] at h
  split at h
  · simp only [Except.ok.injEq] at h
    have hm : node ∈ (readBlocks 0 (Text.numberedLines text.toList)).1 := by
      rw [h]
      exact hn
    exact legible_of_mem_readBlocks (fun line => newline_notMem_of_mem_numberedLines) hm
  · cases h

end Dialogue.Node
