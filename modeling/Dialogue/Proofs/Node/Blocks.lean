import Mathlib
import Dialogue.Proofs.Node.RoundTrip

/-!
# Blocks one after the other

With the line that ends a body the reader has forgotten all of the block, so the blocks of two texts read as if each
text were alone (`readBlocks_append`). What is said about the later text goes by lines and nodes that are counted on
(`readBlocks_shift`). So texts are put together with what is read of them (`parse_append`).
-/

namespace Dialogue

namespace Warning

/-- The warning when so many lines and nodes come before the text. -/
def shift (lines nodes : Nat) : Warning → Warning
  | .badHeader line text => .badHeader (line + lines) text
  | .repeatedHeader line field => .repeatedHeader (line + lines) field
  | .badPosition line value => .badPosition (line + lines) value
  | .noTitle index => .noTitle (index + nodes)
  | .droppedHeaders title => .droppedHeaders title

end Warning

namespace Node

/-! ## Where a reader stands -/

/-- Whether the next line belongs to a body, by whether the line itself does. -/
def entersBody (inside : Bool) (line : List Char) : Bool :=
  if inside then line ≠ bodyEnd else line = bodyStart

/-- A line after all these belongs to a body. -/
def isInBody (lines : List (List Char)) : Bool :=
  lines.foldl entersBody false

/-- **The last line ends a body.** -/
def EndsBody (lines : List (List Char)) : Prop :=
  ∃ before, lines = before ++ [bodyEnd] ∧ isInBody before = true

/-- Only one line leads into a body, and only one out of it. -/
theorem foldl_entersBody (inside : Bool) {lines : List (List Char)}
    (h : (if inside then bodyEnd else bodyStart) ∉ lines) : lines.foldl entersBody inside = inside := by
  induction lines with
  | nil => rfl
  | cons line rest ih =>
    obtain ⟨hline, hrest⟩ := List.ne_and_not_mem_of_not_mem_cons h
    have hstay : entersBody inside line = inside := by
      cases inside
      · simpa [entersBody] using Ne.symm hline
      · simpa [entersBody] using Ne.symm hline
    rw [List.foldl_cons, hstay, ih hrest]

theorem bodyStart_mem_of_isInBody {lines : List (List Char)} (h : isInBody lines = true) : bodyStart ∈ lines := by
  by_contra hnot
  cases h.symm.trans (foldl_entersBody false hnot)

/-- **Lines that end a body begin with a block**, and what comes after the block ends a body again. -/
theorem EndsBody.exists_block {lines : List (List Char)} (h : EndsBody lines) :
    ∃ headers body rest, lines = headers ++ bodyStart :: (body ++ bodyEnd :: rest) ∧
      bodyStart ∉ headers ∧ bodyEnd ∉ body ∧ (rest = [] ∨ EndsBody rest) := by
  obtain ⟨before, rfl, hin⟩ := h
  obtain ⟨headers, inner, rfl, hheaders⟩ := List.eq_append_cons_of_mem (bodyStart_mem_of_isInBody hin)
  have hinner : inner.foldl entersBody true = true := by
    rwa [isInBody, List.foldl_append, foldl_entersBody false hheaders, List.foldl_cons,
      show entersBody false bodyStart = true from rfl] at hin
  by_cases hmem : bodyEnd ∈ inner
  · obtain ⟨body, after, rfl, hbody⟩ := List.eq_append_cons_of_mem hmem
    refine ⟨headers, body, after ++ [bodyEnd], by simp, hheaders, hbody, .inr ⟨after, rfl, ?_⟩⟩
    rwa [List.foldl_append, foldl_entersBody true hbody, List.foldl_cons,
      show entersBody true bodyEnd = false from rfl] at hinner
  · exact ⟨headers, inner, [], by simp, hheaders, hmem, .inl rfl⟩

/-! ## Block after block -/

section Blocks

variable {lines rest : List NumberedLine} {start : NumberedLine}

theorem readBlocks_of_no_body (h : (untilLine bodyStart lines).2 = []) (index : Nat) :
    readBlocks index lines =
      ([], (Draft.ofLines (untilLine bodyStart lines).1).warnings ++
        if (Draft.ofLines (untilLine bodyStart lines).1).started then
          [.droppedHeaders (Draft.ofLines (untilLine bodyStart lines).1).node.title]
        else []) := by
  rw [readBlocks]
  split
  · rfl
  · rename_i hcons
    cases h.symm.trans hcons

theorem readBlocks_of_body (h : (untilLine bodyStart lines).2 = start :: rest) (index : Nat) :
    readBlocks index lines =
      ((finish (Draft.ofLines (untilLine bodyStart lines).1) index (untilLine bodyEnd rest).1).1 ::
          (readBlocks (index + 1) ((untilLine bodyEnd rest).2.drop 1)).1,
        (finish (Draft.ofLines (untilLine bodyStart lines).1) index (untilLine bodyEnd rest).1).2 ++
          (readBlocks (index + 1) ((untilLine bodyEnd rest).2.drop 1)).2) := by
  rw [readBlocks]
  split
  · rename_i hnil
    cases h.symm.trans hnil
  · rename_i hcons
    cases h.symm.trans hcons
    rfl

/-- **A complete block is read on its own**, and then what comes after it. -/
theorem readBlocks_block {headers body : List NumberedLine} {last : NumberedLine}
    (hheaders : ∀ line ∈ headers, line.2 ≠ bodyStart) (hstart : start.2 = bodyStart)
    (hbody : ∀ line ∈ body, line.2 ≠ bodyEnd) (hlast : last.2 = bodyEnd) (rest : List NumberedLine) (index : Nat) :
    readBlocks index (headers ++ start :: (body ++ last :: rest)) =
      ((finish (Draft.ofLines headers) index body).1 :: (readBlocks (index + 1) rest).1,
        (finish (Draft.ofLines headers) index body).2 ++ (readBlocks (index + 1) rest).2) := by
  have hfirst := untilLine_append hheaders hstart (body ++ last :: rest)
  have hsecond := untilLine_append hbody hlast rest
  rw [readBlocks_of_body (congrArg Prod.snd hfirst), hfirst, hsecond]
  rfl

theorem readBlocks_nil (index : Nat) : readBlocks index [] = ([], []) :=
  readBlocks_of_no_body rfl index

theorem untilLine_of_forall {mark : List Char} (h : ∀ line ∈ lines, line.2 ≠ mark) :
    untilLine mark lines = (lines, []) := by
  have hp : ∀ line ∈ lines, decide (line.2 ≠ mark) = true := fun line hm => decide_eq_true (h line hm)
  rw [untilLine, List.takeWhile_eq_self_iff.2 hp, List.dropWhile_eq_nil_iff.2 hp]

/-- A body without an end is that of the last node. -/
theorem readBlocks_unended {headers body : List NumberedLine} (hheaders : ∀ line ∈ headers, line.2 ≠ bodyStart)
    (hstart : start.2 = bodyStart) (hbody : ∀ line ∈ body, line.2 ≠ bodyEnd) (index : Nat) :
    readBlocks index (headers ++ start :: body) =
      ([(finish (Draft.ofLines headers) index body).1], (finish (Draft.ofLines headers) index body).2) := by
  have huntil := untilLine_append hheaders hstart body
  rw [readBlocks_of_body (congrArg Prod.snd huntil), huntil, untilLine_of_forall hbody]
  simp [readBlocks_nil]

end Blocks

/-- **Nothing of a block that has ended is left for the lines after it.** -/
theorem readBlocks_append {a : List NumberedLine} (ha : a = [] ∨ EndsBody (a.map Prod.snd)) (b : List NumberedLine)
    (index : Nat) :
    readBlocks index (a ++ b) =
      ((readBlocks index a).1 ++ (readBlocks (index + (readBlocks index a).1.length) b).1,
        (readBlocks index a).2 ++ (readBlocks (index + (readBlocks index a).1.length) b).2) := by
  rcases ha with rfl | ha
  · rw [readBlocks_nil]
    rfl
  · obtain ⟨headers, body, rest, heq, hheaders, hbody, hrest⟩ := ha.exists_block
    obtain ⟨headers, lines, ha, rfl, hlines⟩ := List.map_eq_append_iff.1 heq
    obtain ⟨start, inner, rfl, hstart, hinner⟩ := List.map_eq_cons_iff.1 hlines
    obtain ⟨body, after, rfl, rfl, hafter⟩ := List.map_eq_append_iff.1 hinner
    obtain ⟨last, rest, rfl, hlast, rfl⟩ := List.map_eq_cons_iff.1 hafter
    have hshorter : rest.length < a.length := by
      rw [ha]
      simp only [List.length_append, List.length_cons]
      omega
    have hheaders : ∀ line ∈ headers, line.2 ≠ bodyStart := fun line hmem he =>
      hheaders (List.mem_map.2 ⟨line, hmem, he⟩)
    have hbody : ∀ line ∈ body, line.2 ≠ bodyEnd := fun line hmem he =>
      hbody (List.mem_map.2 ⟨line, hmem, he⟩)
    have hrest : rest = [] ∨ EndsBody (rest.map Prod.snd) := hrest.imp_left List.map_eq_nil_iff.1
    have hsplit : a ++ b = headers ++ start :: (body ++ last :: (rest ++ b)) := by simp [ha]
    have hcount : ∀ n, index + 1 + n = index + (n + 1) := fun n => by omega
    rw [hsplit, ha, readBlocks_block hheaders hstart hbody hlast, readBlocks_block hheaders hstart hbody hlast,
      readBlocks_append hrest b (index + 1), List.length_cons, hcount, List.cons_append, List.append_assoc]
termination_by a.length

/-! ## Counting on -/

section Shift

variable (lines nodes : Nat)

/-- The line when so many come before the text. -/
def shiftLine (line : NumberedLine) : NumberedLine :=
  (line.1 + lines, line.2)

/-- The draft when so many lines and nodes come before the text. -/
def Draft.shift (draft : Draft) : Draft :=
  { draft with warnings := draft.warnings.map (Warning.shift lines nodes) }

theorem setField_shift (draft : Draft) (number : Nat) (field : Field) (value : List Char) :
    (draft.shift lines nodes).setField (number + lines) field value =
      (draft.setField number field value).shift lines nodes := by
  by_cases hgiven : field ∈ draft.given
  all_goals
    cases field with
    | title | tags | parent => simp [Draft.setField, Draft.shift, hgiven, Warning.shift]
    | position =>
      cases hposition : readPosition? value <;>
        simp [Draft.setField, Draft.shift, hgiven, hposition, Warning.shift]

theorem addLine_shift (draft : Draft) (line : NumberedLine) :
    (draft.shift lines nodes).addLine (shiftLine lines line) = (draft.addLine line).shift lines nodes := by
  by_cases hblank : Text.allBlank line.2 = true
  · simp [Draft.addLine, shiftLine, hblank]
  · cases hsplit : splitHeader? line.2 with
    | none => simp [Draft.addLine, shiftLine, hblank, hsplit, Draft.shift, Warning.shift]
    | some header =>
      cases hfield : Field.ofName? (.ofList header.1) with
      | none => simp [Draft.addLine, shiftLine, hblank, hsplit, hfield, Draft.shift]
      | some field =>
        have hset := setField_shift lines nodes { draft with started := true } line.1 field header.2
        simpa [Draft.addLine, shiftLine, hblank, hsplit, hfield, Draft.shift] using hset

theorem ofLines_shift (headers : List NumberedLine) :
    Draft.ofLines (headers.map (shiftLine lines)) = (Draft.ofLines headers).shift lines nodes := by
  have hinitial : ({} : Draft) = Draft.shift lines nodes {} := rfl
  rw [Draft.ofLines, Draft.ofLines, List.foldl_map, hinitial]
  exact List.foldl_hom _ fun draft line => addLine_shift lines nodes draft line

theorem untilLine_shift (mark : List Char) (text : List NumberedLine) :
    untilLine mark (text.map (shiftLine lines)) =
      ((untilLine mark text).1.map (shiftLine lines), (untilLine mark text).2.map (shiftLine lines)) := by
  rw [untilLine, List.takeWhile_map, List.dropWhile_map]
  rfl

theorem finish_shift (draft : Draft) (index : Nat) (body : List NumberedLine) :
    finish (draft.shift lines nodes) (index + nodes) (body.map (shiftLine lines)) =
      ((finish draft index body).1, (finish draft index body).2.map (Warning.shift lines nodes)) := by
  have hbody : (body.map (shiftLine lines)).map Prod.snd = body.map Prod.snd := by
    rw [List.map_map]
    rfl
  by_cases htitle : draft.node.title.isEmpty = true
  · simp [finish, Draft.shift, hbody, htitle, Warning.shift]
  · simp [finish, Draft.shift, hbody, htitle]

/-- **Lines and nodes before a text change the numbers in what is said about it**, and nothing else. -/
theorem readBlocks_shift (index : Nat) (text : List NumberedLine) :
    readBlocks (index + nodes) (text.map (shiftLine lines)) =
      ((readBlocks index text).1, (readBlocks index text).2.map (Warning.shift lines nodes)) := by
  fun_induction readBlocks index text with
  | case1 index text draft hnil =>
    have hshift := untilLine_shift lines bodyStart text
    rw [readBlocks_of_no_body (by rw [hshift, hnil]; rfl), hshift, ofLines_shift lines nodes, List.map_append,
      apply_ite (List.map (Warning.shift lines nodes))]
    rfl
  | case2 index text draft start rest hcons node warnings hfinish later laterWarnings hlater ih =>
    have hshift := untilLine_shift lines bodyStart text
    have hstart : (untilLine bodyStart (text.map (shiftLine lines))).2 =
        shiftLine lines start :: rest.map (shiftLine lines) := by
      rw [hshift, hcons]
      rfl
    have hnext : index + nodes + 1 = index + 1 + nodes := by omega
    rw [readBlocks_of_body hstart, hshift, ofLines_shift lines nodes, untilLine_shift lines bodyEnd rest, finish_shift,
      hfinish, ← List.map_drop, hnext, ih, hlater, List.map_append]

end Shift

/-- **Texts are read one after the other**: when the first one ends with the end of a body, its nodes are followed by
those of the second one, and so are the warnings, with lines and nodes counted on. -/
theorem parse_append {a b : String} (hnewline : a.toList.getLast? = some '\n')
    (hend : EndsBody (Text.lines a.toList)) (hb : bodyStart ∈ Text.lines b.toList) :
    ∃ nodes warnings nodes' warnings', parse a = .ok (nodes, warnings) ∧ parse b = .ok (nodes', warnings') ∧
      parse (a ++ b) = .ok (nodes ++ nodes',
        warnings ++ warnings'.map (Warning.shift (Text.lines a.toList).length nodes.length)) := by
  obtain ⟨before, hbefore, hin⟩ := id hend
  have ha : bodyStart ∈ Text.lines a.toList := by
    rw [hbefore]
    exact List.mem_append_left _ (bodyStart_mem_of_isInBody hin)
  have hab : bodyStart ∈ Text.lines (a ++ b).toList := by
    rw [String.toList_append, Text.lines_append hnewline]
    exact List.mem_append_left _ ha
  have hblocks : EndsBody ((Text.numberedLines a.toList).map Prod.snd) := by rwa [map_snd_numberedLines]
  have hshift := readBlocks_shift (Text.lines a.toList).length (readBlocks 0 (Text.numberedLines a.toList)).1.length 0
    (Text.numberedLines b.toList)
  refine ⟨_, _, _, _, parse_of_mem ha, parse_of_mem hb, ?_⟩
  rw [parse_of_mem hab, String.toList_append, Text.numberedLines_append hnewline, readBlocks_append (.inr hblocks)]
  exact congrArg (fun later => Except.ok (_ ++ Prod.fst later, _ ++ Prod.snd later)) hshift

/-- A header without a colon on the second line of a text and a node without a title are the sixth line and the second
node behind a text of four lines. -/
theorem parse_append_bad_header :
    ("title: A\n---\nx\n===\n".toList.getLast? = some '\n' ∧
      EndsBody (Text.lines "title: A\n---\nx\n===\n".toList) ∧
      bodyStart ∈ Text.lines "title: \nB\n---\n===\n".toList) ∧
    parse ("title: A\n---\nx\n===\n" ++ "title: \nB\n---\n===\n") =
      .ok ([{ title := "A", body := "x" }, {}], [.badHeader 6 "B", .noTitle 1]) := by
  have hnewline : "title: A\n---\nx\n===\n".toList.getLast? = some '\n' := by decide
  have hend : EndsBody (Text.lines "title: A\n---\nx\n===\n".toList) :=
    ⟨["title: A".toList, bodyStart, ['x']], by decide +kernel, by decide +kernel⟩
  have hb : bodyStart ∈ Text.lines "title: \nB\n---\n===\n".toList := by decide +kernel
  obtain ⟨nodes, warnings, nodes', warnings', hfirst, hsecond, hboth⟩ := parse_append hnewline hend hb
  have hfirst' : parse "title: A\n---\nx\n===\n" = .ok ([{ title := "A", body := "x" }], []) := by
    decide +kernel
  have hsecond' : parse "title: \nB\n---\n===\n" = .ok ([{}], [.badHeader 2 "B", .noTitle 0]) := by
    decide +kernel
  cases hfirst.symm.trans hfirst'
  cases hsecond.symm.trans hsecond'
  exact ⟨⟨hnewline, hend, hb⟩, hboth.trans (by decide +kernel)⟩

end Node

end Dialogue
