import Mathlib
import Dialogue.Proofs.Node.Legible

/-!
# What is written reads back

A line that is written comes back as it is, but that a bare `\n` takes one `\r` at its end along, and that the lines of
a body lose theirs before they are written. So nodes read back exactly when they could have been read at all and none
of their texts ends a line in `\r`.

* `parse_render_iff`: exactly which nodes read back.
* `parse_render_of_parse`: exactly when a text that was read keeps its meaning when it is written again.
-/

namespace Dialogue

namespace LineEnding

/-- What is read of a line that was written with this line end. -/
def readBack : LineEnding → List Char → List Char
  | .unix, line => Text.dropReturn line
  | .windows, line => line

theorem lines_flatMap (ending : LineEnding) {written : List (List Char)} (h : ∀ line ∈ written, '\n' ∉ line) :
    Text.lines (written.flatMap (· ++ ending.toList)) = written.map ending.readBack := by
  cases ending with
  | unix => exact Text.lines_flatMap_newline h
  | windows => rw [show windows.readBack = id from rfl, List.map_id]; exact Text.lines_flatMap_return h

theorem readBack_append (ending : LineEnding) {a b : List Char} (ha : '\r' ∉ a) :
    ending.readBack (a ++ b) = a ++ ending.readBack b := by
  cases ending with
  | unix => exact Text.dropReturn_append ha
  | windows => rfl

theorem readBack_eq_self_iff {ending : LineEnding} {line : List Char} :
    ending.readBack line = line ↔ (ending = .unix → line.getLast? ≠ some '\r') := by
  cases ending with
  | unix => simp [readBack, Text.dropReturn_eq_self_iff]
  | windows => simp [readBack]

theorem readBack_of_notMem (ending : LineEnding) {line : List Char} (h : '\r' ∉ line) :
    ending.readBack line = line :=
  readBack_eq_self_iff.2 fun _ hl => h (List.mem_of_getLast? hl)

end LineEnding

namespace Node

/-- **No value and no line of the body loses its end** when the node is written with a line end. -/
structure EndsKept (ending : LineEnding) (node : Node) : Prop where
  values_end : ending = .unix → ∀ value ∈ node.values, value.toList.getLast? ≠ some '\r'
  pieces_end : ∀ piece ∈ node.pieces, piece.getLast? ≠ some '\r'

/-- **A node that reads back.** -/
structure Writable (ending : LineEnding) (node : Node) : Prop where
  legible : node.Legible
  endsKept : node.EndsKept ending

/-! ## Lines of a body -/

/-- The line of a body as it is written. -/
def dropReturns (line : List Char) : List Char :=
  (line.reverse.dropWhile (· = '\r')).reverse

theorem dropReturns_eq_self_iff {line : List Char} : dropReturns line = line ↔ line.getLast? ≠ some '\r' := by
  rw [dropReturns, List.reverse_eq_iff, List.dropWhile_eq_self_iff, ← List.head?_reverse]
  cases line.reverse with
  | nil => simp
  | cons c rest => simp

theorem mem_of_mem_dropReturns {line : List Char} {c : Char} (h : c ∈ dropReturns line) : c ∈ line :=
  List.mem_reverse.1 ((List.dropWhile_sublist _).mem (List.mem_reverse.1 h))

theorem getLast?_dropReturns (line : List Char) : (dropReturns line).getLast? ≠ some '\r' := by
  rw [dropReturns, List.getLast?_reverse]
  intro h
  have := List.head?_dropWhile_not (fun c : Char => decide (c = '\r')) line.reverse
  rw [h] at this
  simp at this

theorem bodyLines_of_empty {node : Node} (h : node.body = "") : bodyLines node.body = [] := by
  simp [bodyLines, h]

theorem bodyLines_of_ne_empty {node : Node} (h : node.body ≠ "") :
    bodyLines node.body = node.pieces.map dropReturns := by
  simp only [bodyLines, String.isEmpty_iff, h, if_false]
  rfl

/-- The lines of a body that are written hold no line end, and reading takes nothing off them. -/
theorem of_mem_bodyLines {node : Node} (ending : LineEnding) {line : List Char} (h : line ∈ bodyLines node.body) :
    '\n' ∉ line ∧ ending.readBack line = line := by
  by_cases hb : node.body = ""
  · rw [bodyLines_of_empty hb] at h
    cases h
  · rw [bodyLines_of_ne_empty hb] at h
    obtain ⟨piece, hp, rfl⟩ := List.mem_map.1 h
    exact ⟨fun hn => Text.notMem_of_mem_splitOn '\n' hp (mem_of_mem_dropReturns hn),
      LineEnding.readBack_eq_self_iff.2 fun _ => getLast?_dropReturns piece⟩

/-! ## The lines of a node -/

/-- What is read of the headers of a node that was written. -/
def readBack (ending : LineEnding) (node : Node) : Node :=
  { node with
    title := .ofList (ending.readBack node.title.toList)
    tags := .ofList (ending.readBack node.tags.toList)
    parent := node.parent.map fun parent => .ofList (ending.readBack parent.toList)
    extra := node.extra.map fun header => ⟨header.key, .ofList (ending.readBack header.value.toList)⟩ }

theorem readBack_eq_self_iff {ending : LineEnding} {node : Node} :
    node.readBack ending = node ↔ ∀ value ∈ node.values, ending.readBack value.toList = value.toList := by
  have hs : ∀ value : String, String.ofList (ending.readBack value.toList) = value ↔
      ending.readBack value.toList = value.toList := fun value => by
    rw [← String.toList_inj, String.toList_ofList]
  obtain ⟨title, body, tags, position, parent, extra⟩ := node
  simp only [readBack, mk.injEq, hs, true_and, values, List.forall_mem_cons, List.forall_mem_append]
  refine and_congr_right fun _ => and_congr_right fun _ => and_congr ?_ ?_
  · cases parent <;> simp [hs]
  · constructor
    · intro h value hv
      obtain ⟨header, hm, rfl⟩ := List.mem_map.1 hv
      have hh := List.map_inj_left.1 (h.trans (List.map_id _).symm) header hm
      exact (hs _).1 (congrArg Header.value hh)
    · intro h
      refine (List.map_congr_left fun header hm => ?_).trans (List.map_id _)
      rw [(hs _).2 (h _ (List.mem_map_of_mem hm))]
      rfl

theorem readBack_headerLine (ending : LineEnding) {key : List Char} (hk : '\r' ∉ key) (value : List Char) :
    ending.readBack (headerLine key value) = headerLine key (ending.readBack value) := by
  have ha : '\r' ∉ key ++ [':', ' '] := by simpa using hk
  have he : ∀ value, headerLine key value = (key ++ [':', ' ']) ++ value := fun value => by simp [headerLine]
  rw [he, he, ending.readBack_append ha]

theorem notMem_of_not_blank {key : List Char} (h : ∀ c ∈ key, Text.isBlank c = false) {c : Char}
    (hc : Text.isBlank c) : c ∉ key :=
  fun hm => by simp [h c hm] at hc

theorem fieldValue?_readBack (ending : LineEnding) (node : Node) (field : Field) :
    (node.readBack ending).fieldValue? field = (node.fieldValue? field).map ending.readBack := by
  cases field with
  | title => simp [fieldValue?, readBack]
  | tags => simp [fieldValue?, readBack]
  | position =>
    have hp : '\r' ∉ positionText node.position := notMem_positionText (by decide) (by decide) (by decide) _
    simp [fieldValue?, readBack, ending.readBack_of_notMem hp]
  | parent => simp [fieldValue?, readBack, Function.comp_def]

theorem map_readBack_headerLines (ending : LineEnding) {node : Node} (hk : ∀ header ∈ node.extra, IsKey header.key)
    (order : List Field) :
    (node.headerLines order).map ending.readBack = (node.readBack ending).headerLines order := by
  simp only [headerLines, List.map_append, List.map_filterMap, List.map_map, fieldValue?_readBack]
  congr 1
  · refine List.filterMap_congr ?_
    intro field _
    have hr : '\r' ∉ field.name.toList := notMem_of_not_blank field.name_plain.2.1 (by decide)
    cases node.fieldValue? field with
    | none => rfl
    | some value => exact congrArg some (readBack_headerLine ending hr value)
  · simp only [readBack, List.map_map]
    refine List.map_congr_left ?_
    intro header hm
    have hr : '\r' ∉ header.key.toList := notMem_of_not_blank (hk header hm).not_blank (by decide)
    simp [readBack_headerLine ending hr]

/-- No header line of a legible node holds a line end. -/
theorem newline_notMem_headerLines {node : Node} (h : node.Legible) (order : List Field) {line : List Char}
    (hl : line ∈ node.headerLines order) : '\n' ∉ line := by
  have ha : ∀ {key value : List Char}, (∀ c ∈ key, Text.isBlank c = false) → '\n' ∉ value →
      '\n' ∉ headerLine key value := fun hk hv => by
    simpa [headerLine, hv] using notMem_of_not_blank hk (by decide)
  rcases List.mem_append.1 hl with hl | hl
  · obtain ⟨field, -, hf⟩ := List.mem_filterMap.1 hl
    obtain ⟨value, hv, rfl⟩ := Option.map_eq_some_iff.1 hf
    refine ha field.name_plain.2.1 ?_
    cases field with
    | title => cases hv; exact h.values_line _ (mem_values.2 (.inl rfl))
    | tags => cases hv; exact h.values_line _ (mem_values.2 (.inr (.inl rfl)))
    | position => cases hv; exact notMem_positionText (by decide) (by decide) (by decide) _
    | parent =>
      obtain ⟨parent, hp, rfl⟩ := Option.map_eq_some_iff.1 hv
      exact h.values_line _ (mem_values.2 (.inr (.inr (.inl hp))))
  · obtain ⟨header, hm, rfl⟩ := List.mem_map.1 hl
    exact ha (h.keys header hm).not_blank (h.values_line _ (mem_values.2 (.inr (.inr (.inr ⟨header, hm, rfl⟩)))))

theorem newline_notMem_allLines {node : Node} (h : node.Legible) (order : List Field) {line : List Char}
    (hl : line ∈ node.allLines order) : '\n' ∉ line := by
  simp only [allLines, List.append_assoc, List.cons_append, List.mem_append, List.mem_cons, List.not_mem_nil,
    or_false] at hl
  rcases hl with hl | rfl | hl | rfl
  · exact newline_notMem_headerLines h order hl
  · decide
  · exact (of_mem_bodyLines .unix hl).1
  · decide

/-- **The lines that are read of nodes that were written.** -/
theorem lines_render {nodes : List Node} (h : ∀ node ∈ nodes, node.Legible) (style : WriteStyle) :
    Text.lines (render nodes style).toList =
      (nodes.flatMap fun node => node.allLines style.writeOrder).map style.lineEnding.readBack := by
  rw [render, String.toList_ofList, ← List.flatMap_assoc]
  refine style.lineEnding.lines_flatMap ?_
  intro line hl
  obtain ⟨node, hn, hl⟩ := List.mem_flatMap.1 hl
  exact newline_notMem_allLines (h node hn) _ hl

/-! ## Blocks -/

theorem untilLine_append {mark : List Char} {before : List NumberedLine} (hb : ∀ line ∈ before, line.2 ≠ mark)
    {line : NumberedLine} (hl : line.2 = mark) (after : List NumberedLine) :
    untilLine mark (before ++ line :: after) = (before, line :: after) := by
  have hp : ∀ line ∈ before, decide (line.2 ≠ mark) = true := fun line hm => decide_eq_true (hb line hm)
  rw [untilLine, List.takeWhile_append_of_pos hp, List.dropWhile_append_of_pos hp]
  simp [hl]

/-- The lines before a mark are found among those in front of any such line. -/
theorem fst_untilLine_append {mark : List Char} (before : List NumberedLine) {line : NumberedLine}
    (hl : line.2 = mark) (after : List NumberedLine) :
    (untilLine mark (before ++ line :: after)).1 = (untilLine mark before).1 := by
  simp only [untilLine, List.takeWhile_append]
  split
  · rename_i h
    rw [(List.takeWhile_prefix _).eq_of_length h]
    simp [hl]
  · rfl

theorem fst_readBlocks {headers rest : List NumberedLine} (hh : ∀ line ∈ headers, line.2 ≠ bodyStart)
    {start : NumberedLine} (hs : start.2 = bodyStart) (index : Nat) :
    (readBlocks index (headers ++ start :: rest)).1 =
      (finish (Draft.ofLines headers) index (untilLine bodyEnd rest).1).1 ::
        (readBlocks (index + 1) ((untilLine bodyEnd rest).2.drop 1)).1 := by
  have hu := untilLine_append hh hs rest
  rw [readBlocks]
  split
  · rename_i h
    simp [hu] at h
  · rename_i h
    rw [hu] at h
    simp only [List.cons.injEq] at h
    obtain ⟨rfl, rfl⟩ := h
    rw [hu]

/-- Lines that end in no `\r` are written as they are. -/
theorem bodyLines_eq_pieces {node : Node} (he : node.body ≠ "")
    (h : ∀ piece ∈ node.pieces, piece.getLast? ≠ some '\r') : bodyLines node.body = node.pieces := by
  rw [bodyLines_of_ne_empty he]
  exact (List.map_congr_left fun piece hp => dropReturns_eq_self_iff.2 (h piece hp)).trans (List.map_id _)

/-- Then no line of a body that is written ends the body. -/
theorem bodyEnd_notMem_bodyLines {node : Node} (hn : node.Legible)
    (h : ∀ piece ∈ node.pieces, piece.getLast? ≠ some '\r') : bodyEnd ∉ bodyLines node.body := by
  by_cases he : node.body = ""
  · simp [bodyLines_of_empty he]
  · rw [bodyLines_eq_pieces he h]
    exact hn.no_bodyEnd

/-- A body whose lines are written and come back as the body had no `\r` to lose: as many lines are read as the body
has, so all that were written are read. -/
theorem pieces_end_of_untilLine {node : Node} (he : node.body ≠ "") {body : List NumberedLine}
    (hb : body.map Prod.snd = bodyLines node.body)
    (h : ['\n'].intercalate ((untilLine bodyEnd body).1.map Prod.snd) = node.body.toList) :
    ∀ piece ∈ node.pieces, piece.getLast? ≠ some '\r' := by
  intro piece hp
  have hne : (untilLine bodyEnd body).1.map Prod.snd ≠ [] := by
    intro hnil
    rw [hnil] at h
    exact he (String.toList_inj.1 (by rw [← h]; rfl))
  have hsplit : (untilLine bodyEnd body).1.map Prod.snd = node.pieces := by
    rw [pieces, ← h, List.splitOn_intercalate '\n' (fun l hm => ?_) hne]
    obtain ⟨other, ho, rfl⟩ := List.mem_map.1 hm
    have hw : other.2 ∈ bodyLines node.body := by
      rw [← hb]
      exact List.mem_map_of_mem (mem_of_mem_untilLine_fst ho).1
    exact (of_mem_bodyLines .unix hw).1
  rw [bodyLines_of_ne_empty he] at hb
  have hlen : (untilLine bodyEnd body).1.length = body.length := by
    have h₁ := congrArg List.length hsplit
    have h₂ := congrArg List.length hb
    simp only [List.length_map] at h₁ h₂
    omega
  have hall : (untilLine bodyEnd body).1 = body := (List.takeWhile_prefix _).eq_of_length hlen
  have hpieces : node.pieces.map dropReturns = node.pieces.map id := by
    rw [List.map_id, ← hb, ← hsplit, hall]
  exact dropReturns_eq_self_iff.1 (List.map_inj_left.1 hpieces piece hp)

/-- **A body comes back exactly when none of its lines ends in `\r`**. -/
theorem body_untilLine_iff {node : Node} (hn : node.Legible) {body : List NumberedLine}
    (hb : body.map Prod.snd = bodyLines node.body) {line : NumberedLine} (hl : line.2 = bodyEnd)
    (after : List NumberedLine) :
    String.ofList (['\n'].intercalate ((untilLine bodyEnd (body ++ line :: after)).1.map Prod.snd)) = node.body ↔
      ∀ piece ∈ node.pieces, piece.getLast? ≠ some '\r' := by
  rw [fst_untilLine_append body hl, ← String.toList_inj, String.toList_ofList]
  by_cases he : node.body = ""
  · rw [bodyLines_of_empty he] at hb
    rw [List.map_eq_nil_iff.1 hb, pieces, he]
    simp [untilLine]
  · constructor
    · exact pieces_end_of_untilLine he hb
    · intro h
      have hend := bodyEnd_notMem_bodyLines hn h
      rw [← hb] at hend
      have hall : (untilLine bodyEnd body).1 = body :=
        List.takeWhile_eq_self_iff.2 fun other ho => decide_eq_true fun heq =>
          hend (heq ▸ List.mem_map_of_mem ho)
      rw [hall, hb, bodyLines_eq_pieces he h, pieces, List.intercalate_splitOn]

/-- The lines of a node that are read, its headers as they come back. -/
theorem map_readBack_allLines (ending : LineEnding) {node : Node} (hk : ∀ header ∈ node.extra, IsKey header.key)
    (order : List Field) : (node.allLines order).map ending.readBack =
      (node.readBack ending).headerLines order ++ bodyStart :: (bodyLines node.body ++ [bodyEnd]) := by
  have hbody : (bodyLines node.body).map ending.readBack = bodyLines node.body :=
    (List.map_congr_left fun line hl => (of_mem_bodyLines ending hl).2).trans (List.map_id _)
  have hmark : ending.readBack bodyStart = bodyStart ∧ ending.readBack bodyEnd = bodyEnd :=
    ⟨ending.readBack_of_notMem (by decide), ending.readBack_of_notMem (by decide)⟩
  simp [allLines, map_readBack_headerLines ending hk, hbody, hmark]

theorem ne_bodyStart_of_mem_headerLines {node : Node} {order : List Field} {line : List Char}
    (h : line ∈ node.headerLines order) : line ≠ bodyStart := by
  rcases List.mem_append.1 h with h | h
  · obtain ⟨field, -, hf⟩ := List.mem_filterMap.1 h
    obtain ⟨value, -, rfl⟩ := Option.map_eq_some_iff.1 hf
    exact headerLine_ne_bodyStart _ _
  · obtain ⟨header, -, rfl⟩ := List.mem_map.1 h
    exact headerLine_ne_bodyStart _ _

theorem endsKept_iff {ending : LineEnding} {node : Node} : node.EndsKept ending ↔
    node.readBack ending = node ∧ ∀ piece ∈ node.pieces, piece.getLast? ≠ some '\r' := by
  simp only [readBack_eq_self_iff, LineEnding.readBack_eq_self_iff]
  constructor
  · intro h
    exact ⟨fun value hv he => h.values_end he value hv, h.pieces_end⟩
  · rintro ⟨hv, hp⟩
    exact ⟨fun he value hm => hv value hm he, hp⟩

/-- A node that was written comes back exactly when no line end is lost. -/
theorem finish_eq_iff {ending : LineEnding} {order : List Field} (ho : ∀ field, field ∈ order) {node : Node}
    (hnode : node.Legible) {headers body : List NumberedLine}
    (hheaders : headers.map Prod.snd = (node.readBack ending).headerLines order)
    (hbody : body.map Prod.snd = bodyLines node.body) {stop : NumberedLine} (hstop : stop.2 = bodyEnd)
    (index : Nat) (rest : List NumberedLine) :
    (finish (Draft.ofLines headers) index (untilLine bodyEnd (body ++ stop :: rest)).1).1 = node ↔
      node.EndsKept ending := by
  have hkeys : ∀ header ∈ (node.readBack ending).extra, IsKey header.key := by
    intro header hm
    obtain ⟨old, hold, rfl⟩ := List.mem_map.1 hm
    exact hnode.keys old hold
  rw [endsKept_iff, ← body_untilLine_iff hnode hbody hstop rest]
  simp only [finish, node_ofLines ho hkeys hheaders]
  constructor
  · intro h
    have hb := congrArg Node.body h
    simp only at hb
    rw [hb] at h
    exact ⟨h, hb⟩
  · rintro ⟨h, hb⟩
    rw [hb]
    exact h

/-- **Nodes that were written come back exactly when no line end is lost.** -/
theorem readBlocks_eq_iff {ending : LineEnding} {order : List Field} (ho : ∀ field, field ∈ order) :
    ∀ {nodes : List Node} {index : Nat} {lines : List NumberedLine}, (∀ node ∈ nodes, node.Legible) →
      lines.map Prod.snd = (nodes.flatMap fun node => node.allLines order).map ending.readBack →
      ((readBlocks index lines).1 = nodes ↔ ∀ node ∈ nodes, node.EndsKept ending)
  | [], index, lines, _, h => by
    rw [List.map_eq_nil_iff.1 h, readBlocks]
    simp [untilLine]
  | node :: nodes, index, lines, hn, h => by
    have hnode := hn node List.mem_cons_self
    rw [List.flatMap_cons, List.map_append, map_readBack_allLines ending hnode.keys, List.append_assoc,
      List.cons_append, List.append_assoc, List.singleton_append] at h
    obtain ⟨headers, _, rfl, hheaders, h⟩ := List.map_eq_append_iff.1 h
    obtain ⟨start, _, rfl, hstart, h⟩ := List.map_eq_cons_iff.1 h
    obtain ⟨body, _, rfl, hbody, h⟩ := List.map_eq_append_iff.1 h
    obtain ⟨stop, rest, rfl, hstop, hrest⟩ := List.map_eq_cons_iff.1 h
    have hmark : ∀ line ∈ headers, line.2 ≠ bodyStart := fun line hl =>
      ne_bodyStart_of_mem_headerLines (hheaders ▸ List.mem_map_of_mem hl)
    rw [fst_readBlocks hmark hstart, List.cons.injEq, finish_eq_iff ho hnode hheaders hbody hstop, List.forall_mem_cons]
    refine and_congr_right ?_
    intro hkept
    have hend : untilLine bodyEnd (body ++ stop :: rest) = (body, stop :: rest) := by
      refine untilLine_append ?_ hstop rest
      intro line hl heq
      refine bodyEnd_notMem_bodyLines hnode hkept.pieces_end ?_
      rw [← hbody, ← heq]
      exact List.mem_map_of_mem hl
    rw [hend, List.drop_one, List.tail_cons]
    exact readBlocks_eq_iff ho (fun other hm => hn other (List.mem_cons_of_mem _ hm)) hrest

/-! ## Texts -/

theorem map_snd_numberedLines (cs : List Char) : (Text.numberedLines cs).map Prod.snd = Text.lines cs := by
  rw [Text.numberedLines, List.map_map]
  exact List.zipIdx_map_fst 1 (Text.lines cs)

/-- A text with the start of a body can be read. -/
theorem parse_of_mem {text : String} (h : bodyStart ∈ Text.lines text.toList) :
    parse text = .ok (readBlocks 0 (Text.numberedLines text.toList)) := by
  rw [← map_snd_numberedLines] at h
  obtain ⟨line, hl, hs⟩ := List.mem_map.1 h
  rw [parse]
  exact if_pos (List.any_eq_true.2 ⟨line, hl, decide_eq_true hs⟩)

/-- A text of nodes can be read as soon as there is a node. -/
theorem parse_render {nodes : List Node} (hne : nodes ≠ []) (h : ∀ node ∈ nodes, node.Legible) (style : WriteStyle) :
    parse (render nodes style) = .ok (readBlocks 0 (Text.numberedLines (render nodes style).toList)) := by
  obtain ⟨node, rest, rfl⟩ := List.exists_cons_of_ne_nil hne
  have hstart : bodyStart ∈ Text.lines (render (node :: rest) style).toList := by
    rw [lines_render h style]
    refine List.mem_map.2 ⟨bodyStart, ?_, style.lineEnding.readBack_of_notMem (by decide)⟩
    exact List.mem_flatMap.2 ⟨node, List.mem_cons_self, by simp [allLines]⟩
  exact parse_of_mem hstart

theorem ne_nil_of_parse {text : String} {nodes : List Node} {warnings : List Warning}
    (h : parse text = .ok (nodes, warnings)) : nodes ≠ [] := by
  simp only [parse] at h
  split at h
  · rename_i hany
    obtain ⟨line, hl, hs⟩ := List.any_eq_true.1 hany
    simp only [Except.ok.injEq] at h
    rintro rfl
    rw [readBlocks] at h
    split at h
    · rename_i hnone
      have := List.dropWhile_eq_nil_iff.1 hnone line hl
      simp_all
    · simp at h
  · cases h

/-- Nodes that are read back from their own text are the ones that keep their line ends. -/
theorem fst_readBlocks_render {nodes : List Node} (h : ∀ node ∈ nodes, node.Legible) (style : WriteStyle) :
    (readBlocks 0 (Text.numberedLines (render nodes style).toList)).1 = nodes ↔
      ∀ node ∈ nodes, node.EndsKept style.lineEnding :=
  readBlocks_eq_iff (mem_writeOrder style) h (by rw [map_snd_numberedLines, lines_render h])

/-- **Exactly which nodes read back**: some nodes, each of which could have been read and ends no line in a `\r` that is
lost. -/
theorem parse_render_iff (nodes : List Node) (style : WriteStyle) :
    (∃ warnings, parse (render nodes style) = .ok (nodes, warnings)) ↔
      nodes ≠ [] ∧ ∀ node ∈ nodes, node.Writable style.lineEnding := by
  constructor
  · rintro ⟨warnings, h⟩
    have hl : ∀ node ∈ nodes, node.Legible := fun node hn => legible_of_mem_parse h hn
    have hne := ne_nil_of_parse h
    rw [parse_render hne hl, Except.ok.injEq] at h
    have hk := (fst_readBlocks_render hl style).1 (by rw [h])
    exact ⟨hne, fun node hn => ⟨hl node hn, hk node hn⟩⟩
  · rintro ⟨hne, h⟩
    have hl : ∀ node ∈ nodes, node.Legible := fun node hn => (h node hn).legible
    have hk := (fst_readBlocks_render hl style).2 fun node hn => (h node hn).endsKept
    exact ⟨_, by rw [parse_render hne hl, ← Prod.mk.eta (p := readBlocks _ _), hk]⟩

/-- **When a text keeps its meaning**: what was read is always written so that it can be read again, and it comes back
exactly when none of it ends a line in a `\r` that is lost. -/
theorem parse_render_of_parse {text : String} {nodes : List Node} {warnings : List Warning}
    (h : parse text = .ok (nodes, warnings)) (style : WriteStyle) :
    ∃ again later, parse (render nodes style) = .ok (again, later) ∧
      (again = nodes ↔ ∀ node ∈ nodes, node.EndsKept style.lineEnding) := by
  have hl : ∀ node ∈ nodes, node.Legible := fun node hn => legible_of_mem_parse h hn
  exact ⟨_, _, parse_render (ne_nil_of_parse h) hl style, fst_readBlocks_render hl style⟩

/-- A line of a body that ends in two `\r` comes back without any. -/
theorem parse_render_two_returns :
    parse "title: A\n---\nx\r\r\n===\n" = .ok ([{ title := "A", body := "x\r" }], []) ∧
      ∃ again later, parse (render [{ title := "A", body := "x\r" }] {}) = .ok (again, later) ∧
        again ≠ [{ title := "A", body := "x\r" }] := by
  have h : parse "title: A\n---\nx\r\r\n===\n" = .ok ([{ title := "A", body := "x\r" }], []) := by
    decide +kernel
  obtain ⟨again, later, hp, hiff⟩ := parse_render_of_parse h {}
  refine ⟨h, again, later, hp, ?_⟩
  intro he
  have hk := (hiff.1 he _ (List.mem_singleton_self _)).pieces_end ['x', '\r'] (by decide +kernel)
  exact hk rfl

end Node

end Dialogue
